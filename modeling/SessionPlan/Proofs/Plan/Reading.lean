import SessionPlan.Proofs.Plan.Calls
import SessionPlan.Proofs.Plan.Multiplexer

/-! A multiplexer that reads the lines of a plan hears the commands that were meant. Targets are
taken apart at their colon and their dot, so it matters that the session's name holds neither. -/
namespace SessionPlan
open SessionPlan.Text

/-- The session that a command names, if it names one. -/
def Command.session? : Command → Option String
  | .newSession session _ _ | .setBaseIndex session _ | .renumberWindows session
  | .attach session => some session
  | .newWindow target _ _ | .setPaneBaseIndex target _ | .selectLayout target _
  | .selectWindow target => some target.session
  | .splitWindow target _ _ _ | .titlePane target _ | .typeLine target _ | .clearScreen target
  | .selectPane target => some target.window.session
  | .runShell _ => none

namespace Multiplexer

theorem isDigit_toDigits {n : Nat} {c : Char} (member : c ∈ Nat.toDigits 10 n) :
    c.isDigit = true :=
  Nat.isDigit_of_mem_toDigits (by decide) (by decide) member

theorem natural?_toDigits (n : Nat) : natural? (Nat.toDigits 10 n) = some n := by
  have digits : (Nat.toDigits 10 n).all Char.isDigit = true :=
    List.all_eq_true.mpr fun c member => isDigit_toDigits member
  simp [natural?, digits, Nat.toDigits_ne_nil, Nat.ofDigitChars_ten_toDigits]

theorem number?_ofInt (n : Int) : number? (ofInt n).toList = some n := by
  cases n with
  | ofNat k =>
    have unsigned (rest : List Char) : Nat.toDigits 10 k ≠ '-' :: rest := by
      intro signed
      have digit : ('-' : Char).isDigit = true := isDigit_toDigits (signed ▸ List.mem_cons_self)
      exact absurd digit (by decide)
    rw [ofInt, ofNat, String.toList_ofList, number?.eq_2 _ fun rest => unsigned rest,
      natural?_toDigits]
    rfl
  | negSucc k =>
    rw [ofInt, String.toList_ofList, number?, natural?_toDigits]
    rfl

/-- In a numeral there are digits, and a sign. -/
theorem mem_ofInt {n : Int} {c : Char} (member : c ∈ (ofInt n).toList) :
    c.isDigit = true ∨ c = '-' := by
  cases n with
  | ofNat k =>
    rw [ofInt, ofNat, String.toList_ofList] at member
    exact .inl (isDigit_toDigits member)
  | negSucc k =>
    rw [ofInt, String.toList_ofList] at member
    exact (List.mem_cons.mp member).symm.imp_left isDigit_toDigits

theorem not_mem_ofInt (n : Int) {c : Char} (other : c.isDigit = false) (sign : c ≠ '-') :
    c ∉ (ofInt n).toList := by
  intro member
  rcases mem_ofInt member with digit | dash
  · exact Bool.false_ne_true (other.symm.trans digit)
  · exact sign dash

theorem windowTarget?_text {t : WindowTarget} (named : Document.IsTargetName t.session) :
    windowTarget? t.text.toList = some t := by
  have word : t.text.toList = t.session.toList ++ ':' :: (ofInt t.window).toList := by
    simp [WindowTarget.text]
  have parts : t.text.toList.splitOn ':' = [t.session.toList, (ofInt t.window).toList] := by
    rw [word, List.splitOn_append_cons_self_of_not_mem named.colon,
      List.splitOn_eq_singleton (not_mem_ofInt _ (by decide) (by decide))]
  simp [windowTarget?, parts, number?_ofInt]

theorem paneTarget?_text {t : PaneTarget} (named : Document.IsTargetName t.window.session) :
    paneTarget? t.text.toList = some t := by
  have word : t.text.toList = t.window.text.toList ++ '.' :: (ofInt t.pane).toList := by
    simp [PaneTarget.text]
  have undotted : '.' ∉ t.window.text.toList := by
    simp [WindowTarget.text, named.dot, not_mem_ofInt]
  have parts : t.text.toList.splitOn '.' = [t.window.text.toList, (ofInt t.pane).toList] := by
    rw [word, List.splitOn_append_cons_self_of_not_mem undotted,
      List.splitOn_eq_singleton (not_mem_ofInt _ (by decide) (by decide))]
  simp [paneTarget?, parts, windowTarget?_text named, number?_ofInt]

/-- The words of a command are read as that command. -/
theorem command?_words {c : Command} (named : ∀ s ∈ c.session?, Document.IsTargetName s) :
    command? c.words = some c := by
  cases c with
  | newSession session name directory =>
    cases name <;> cases directory <;> simp [Command.words, command?, Command.option, flagValue]
  | setBaseIndex session index => simp [Command.words, command?, number?_ofInt]
  | renumberWindows session => simp [Command.words, command?]
  | newWindow target name directory =>
    have heard := windowTarget?_text (named target.session rfl)
    cases name <;> cases directory <;>
      simp [Command.words, command?, Command.option, flagValue, heard]
  | setPaneBaseIndex target index =>
    simp [Command.words, command?, windowTarget?_text (named target.session rfl), number?_ofInt]
  | splitWindow target way size directory =>
    have heard := paneTarget?_text (named target.window.session rfl)
    have options : direction ((way.map SplitDirection.flag).toList ++ (Command.option "-l" size ++
        Command.option "-c" directory)) =
          (way, Command.option "-l" size ++ Command.option "-c" directory) := by
      rcases way with _ | _ | _ <;> cases size <;> cases directory <;>
        simp [direction, Command.option, SplitDirection.flag]
    have sizes : flagValue "-l" (Command.option "-l" size ++ Command.option "-c" directory) =
        (size, Command.option "-c" directory) := by
      cases size <;> cases directory <;> simp [flagValue, Command.option]
    have place : flagValue "-c" (Command.option "-c" directory) = (directory, []) := by
      cases directory <;> simp [flagValue, Command.option]
    simp [Command.words, command?, options, sizes, place, heard]
  | titlePane target title =>
    simp [Command.words, command?, paneTarget?_text (named target.window.session rfl)]
  | selectLayout target layout =>
    simp [Command.words, command?, windowTarget?_text (named target.session rfl)]
  | runShell command => simp [Command.words, command?, Command.replace_doubleHashes]
  | typeLine target line =>
    simp [Command.words, command?, paneTarget?_text (named target.window.session rfl)]
  | clearScreen target =>
    simp [Command.words, command?, paneTarget?_text (named target.window.session rfl)]
  | selectWindow target =>
    simp [Command.words, command?, windowTarget?_text (named target.session rfl)]
  | selectPane target =>
    simp [Command.words, command?, paneTarget?_text (named target.window.session rfl)]
  | attach session => simp [Command.words, command?]

theorem heard?_text {c : Command} (named : ∀ s ∈ c.session?, Document.IsTargetName s) :
    heard? c.text = some c := by
  rw [heard?, c.split_text]
  exact command?_words named

end Multiplexer

/-! ### The commands of a plan name its session -/

namespace Planner

/-- The commands of the group name no other session. -/
def Names (session : String) (g : Group) : Prop :=
  ∀ c ∈ g.commands, ∀ s ∈ c.session?, s = session

variable {pl : Planner}

theorem names_only {session : String} {called : Bool} {g : Group} (names : Names session g) :
    ∀ h ∈ only called g, Names session h := by
  cases called <;> simp [only, names]

theorem names_runShell (session : String) (role : Role) (lines : List String)
    (line : String → String) (window pane : Option Int) :
    Names session ⟨role, lines.map fun c => .runShell (line c), window, pane⟩ := by
  simp [Names, Command.session?]

theorem session?_titling (w : Window) (live : Int) (pane : Pane) :
    ∀ c ∈ titling (pl.paneAt w live) pane, ∀ s ∈ c.session?, s = pl.session := by
  simp [titling, Command.session?, paneAt, windowAt]

theorem names_opening (w : Window) (pane : Pane) (first : Bool) :
    Names pl.session (pl.opening w pane first) := by
  have titles := @session?_titling pl w pl.project.paneBaseIndex pane
  cases first <;> simpa [Names, opening, Command.session?, windowAt] using titles

theorem names_splitting (w : Window) (pane : Pane) (j : Nat) :
    Names pl.session (pl.splitting w pane j) := by
  have titles :=
    @session?_titling pl w (pl.project.paneBaseIndex + w.splitPosition j + 1) pane
  simpa [Names, splitting, Command.session?, paneAt, windowAt] using titles

theorem names_paneSchedule (w : Window) (pane : Pane) (j : Nat) :
    ∀ g ∈ pl.paneSchedule w pane j, Names pl.session g := by
  have typed : Names pl.session ⟨.paneCommands,
      ((pl.project.paneCommands ++ w.paneCommands ++ pane.commands).map fun c =>
        .typeLine (pl.paneAt w (pl.live w j)) (pl.paneLine w (pl.live w j) c)) ++
        (if pane.clear then [.clearScreen (pl.paneAt w (pl.live w j))] else []),
      some w.index, some pane.index⟩ := by
    cases pane.clear <;> simp [Names, Command.session?, paneAt, windowAt, or_imp, forall_and]
  simp only [paneSchedule, List.forall_mem_append]
  have hooks (role : Role) (lines : List String) :=
    names_runShell pl.session role lines (pl.paneLine w (pl.live w j)) (some w.index)
      (some pane.index)
  exact ⟨⟨names_only (hooks _ _), names_only typed⟩, names_only (hooks _ _)⟩

theorem names_windowSchedule (w : Window) (first : Bool) :
    ∀ g ∈ pl.windowSchedule w first, Names pl.session g := by
  simp only [windowSchedule, List.forall_mem_append, List.forall_mem_map,
    List.forall_mem_flatMap]
  have hooks (role : Role) (lines : List String) :=
    names_runShell pl.session role lines (pl.windowLine w) (some w.index) none
  refine ⟨⟨⟨⟨⟨?_, ?_⟩, ?_⟩, names_only (hooks _ _)⟩, ?_⟩, names_only (hooks _ _)⟩
  · intro pane _
    exact names_opening w pane first
  · intro child _
    exact names_splitting w child.1 child.2
  · intro layout _
    simp [Names, Command.session?, windowAt]
  · intro pane _
    exact names_paneSchedule w pane.1 pane.2

theorem names_schedule (startup : Window) : ∀ g ∈ pl.schedule startup, Names pl.session g := by
  simp only [schedule, List.forall_mem_append, List.forall_mem_flatMap]
  have hooks := names_runShell pl.session .postCreate pl.project.postCreate pl.sessionLine none none
  refine ⟨⟨⟨?_, names_only hooks⟩, ?_⟩, names_only ?_⟩
  · intro window _
    exact names_windowSchedule window.1 (window.2 == 0)
  · simp [Names, selecting, Command.session?, paneAt, windowAt]
  · simp [Names, Command.session?]

/-- Every line of the schedule is heard as the command it was written for. -/
theorem heard?_schedule (named : Document.IsTargetName pl.session) (startup : Window) :
    ∀ c ∈ (pl.schedule startup).flatMap Group.commands, Multiplexer.heard? c.text = some c := by
  intro c member
  obtain ⟨g, listed, own⟩ := List.mem_flatMap.mp member
  refine Multiplexer.heard?_text fun s given => ?_
  rw [names_schedule startup g listed c own s given]
  exact named

end Planner

/-- The session of a well-formed project is a name that targets can hold. -/
theorem Project.WellFormed.named {home : String} {p : Project} (formed : p.WellFormed home)
    {override : Option String} {session : String} {args : List String}
    (ready : p.prerequisites override = .ok (session, args)) : Document.IsTargetName session := by
  obtain ⟨name, found, planned⟩ := bind_eq_ok.mp ready
  obtain ⟨words, -, eq⟩ := bind_eq_ok.mp planned
  obtain ⟨rfl, rfl⟩ := Prod.mk.inj (Except.ok.inj eq)
  cases given : p.sessionName with
  | none =>
    rw [Project.session, given] at found
    exact absurd found (reject_ne_ok _ _ _)
  | some own =>
    have target := formed.sessionName own given
    have session : p.session = .ok own := by
      simp [Project.session, given, orNonempty, target.ne_empty]
    obtain rfl : own = name := Except.ok.inj (session.symm.trans found)
    exact target

end SessionPlan
