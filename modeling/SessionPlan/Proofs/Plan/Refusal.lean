import SessionPlan.Proofs.Failure
import SessionPlan.Proofs.Plan.FirstSource
import SessionPlan.Proofs.Plan.Schedule

/-! Which projects have no plan, and what they are told. -/
namespace SessionPlan
open SessionPlan.Geometry (sourceOf splitOf splitsFrom splitPath)

namespace Window

/-- Pane `j`, which is not the first, names a source that is not there before it. -/
structure MisplacedAt (w : Window) (j : Nat) (pane : Pane) (source : Int) : Prop where
  declared : w.panes[j]? = some pane
  further : 0 < j
  named : pane.splitFrom = some source
  late : (j : Int) ≤ source

/-- All panes before a misplaced one are in their places. -/
structure FirstMisplaced (w : Window) (j : Nat) (pane : Pane) (source : Int) : Prop
    extends w.MisplacedAt j pane source where
  earlier : w.SourcedTo (j - 1)

theorem MisplacedAt.not_sourcedTo {w : Window} {j n : Nat} {pane : Pane} {source : Int}
    (misplaced : w.MisplacedAt j pane source) (sourced : w.SourcedTo n) : n < j := by
  by_contra within
  have before := sourced j misplaced.further (by omega)
  have late := misplaced.late
  simp only [Window.source, misplaced.declared, Option.bind_some, misplaced.named] at before
  omega

/-- A pane whose source does not come before it has named that source. -/
theorem misplacedAt_of_late {w : Window} {j : Nat} {pane : Pane}
    (declared : w.panes[j]? = some pane) (further : 0 < j) (late : ¬w.source j < j) :
    ∃ source, w.MisplacedAt j pane source := by
  rw [Window.source, declared, Option.bind_some] at late
  cases named : pane.splitFrom with
  | none =>
    rw [named] at late
    dsimp only at late
    omega
  | some source =>
    rw [named] at late
    dsimp only at late
    exact ⟨source, declared, further, named, by omega⟩

theorem sourced_iff {w : Window} :
    w.Sourced ↔ ∀ j pane source, ¬w.MisplacedAt j pane source := by
  constructor
  · intro sourced j pane source misplaced
    have beyond := misplaced.not_sourcedTo sourced
    obtain ⟨inside, -⟩ := List.getElem?_eq_some_iff.mp misplaced.declared
    omega
  · intro placed j pos le
    by_contra late
    have inside : j < w.panes.length := by omega
    obtain ⟨source, misplaced⟩ :=
      misplacedAt_of_late (List.getElem?_eq_getElem inside) pos late
    exact placed j _ source misplaced

theorem splitOf_misplaced {w : Window} {j : Nat} {pane : Pane} {source : Int}
    (misplaced : w.MisplacedAt j pane source) (base : Int) (path : String) (order : List Nat) :
    splitOf w base path order j pane =
      reject (.splitSourceMissing source w.index pane.index) (splitPath path j) := by
  have source_eq : sourceOf j pane = source := by rw [sourceOf, misplaced.named]; rfl
  rw [splitOf, source_eq]
  exact if_pos misplaced.late

/-- Splitting the panes that remain goes well or ends at the first misplaced one. -/
theorem splitsFrom_outcome {w : Window} (counted : w.Counted) (base : Int) (path : String)
    {n : Nat} {rest : List Pane} (sourced : w.SourcedTo n)
    (remain : w.panes.drop (n + 1) = rest) :
    (∃ r, splitsFrom w base path (w.liveOrder n) (n + 1) rest = .ok r) ∨
      ∃ j pane source, w.FirstMisplaced j pane source ∧
        splitsFrom w base path (w.liveOrder n) (n + 1) rest =
          reject (.splitSourceMissing source w.index pane.index) (splitPath path j) := by
  induction rest generalizing n with
  | nil => exact .inl ⟨_, rfl⟩
  | cons pane rest ih =>
    have declared : w.panes[n + 1]? = some pane := by
      rw [← List.head?_drop, remain]; rfl
    have later : w.panes.drop (n + 1 + 1) = rest := by
      rw [← List.tail_drop, remain]; rfl
    by_cases before : w.source (n + 1) < n + 1
    · have split : splitOf w base path (w.liveOrder n) (n + 1) pane = .ok _ :=
        (splitOf_eq_ok counted sourced declared).mpr ⟨before, rfl⟩
      rw [splitsFrom, split, ok_bind]
      rcases ih (sourced.succ before) later with ⟨r, done⟩ | ⟨j, other, source, first, refused⟩
      · exact .inl ⟨_, by simp only [done, ok_bind]; rfl⟩
      · exact .inr ⟨j, other, source, first, by simp only [refused]; exact reject_bind _ _ _⟩
    · obtain ⟨source, misplaced⟩ := misplacedAt_of_late declared n.succ_pos before
      refine .inr ⟨n + 1, pane, source, ⟨misplaced, sourced⟩, ?_⟩
      rw [splitsFrom, splitOf_misplaced misplaced]
      exact reject_bind _ _ _

theorem ofWindow_outcome {w : Window} (counted : w.Counted) (ne_nil : w.panes ≠ [])
    (base : Int) (path : String) :
    (∃ g, Geometry.ofWindow w base path = .ok g) ∨
      ∃ j pane source, w.FirstMisplaced j pane source ∧
        Geometry.ofWindow w base path =
          reject (.splitSourceMissing source w.index pane.index) (splitPath path j) := by
  obtain ⟨first, rest, panes⟩ := List.exists_cons_of_ne_nil ne_nil
  have none_yet : w.SourcedTo 0 := fun j pos le => absurd le (by omega)
  have remain : w.panes.drop (0 + 1) = rest := by rw [panes]; rfl
  have whole : Geometry.ofWindow w base path =
      splitsFrom w base path (w.liveOrder 0) (0 + 1) rest >>= fun r =>
        .ok ⟨r.1, w.layout, Geometry.indices base r.2 w.panes.length⟩ := by
    simp only [Geometry.ofWindow, panes]
    rfl
  rw [whole]
  rcases splitsFrom_outcome counted base path none_yet remain with
    ⟨r, done⟩ | ⟨j, pane, source, misplaced, refused⟩
  · exact .inl ⟨_, by rw [done, ok_bind]⟩
  · exact .inr ⟨j, pane, source, misplaced, by rw [refused]; exact reject_bind _ _ _⟩

end Window

namespace Project

/-- Where among the windows the first misplaced pane is. -/
structure FirstMisplaced (list : List Window) (i j : Nat) (w : Window) (pane : Pane)
    (source : Int) : Prop where
  window : list[i]? = some w
  earlier : ∀ k < i, ∀ v, list[k]? = some v → v.Sourced
  pane : w.FirstMisplaced j pane source

/-- Where a message about the source of a pane points to. -/
def sourcePath (i j : Nat) : String :=
  "windows[" ++ Text.ofNat i ++ "].panes[" ++ Text.ofNat j ++ "].split_from"

theorem splitPath_window (i j : Nat) :
    splitPath ("windows[" ++ Text.ofNat i ++ "]") j = sourcePath i j := by
  have some_path : ("windows[" ++ Text.ofNat i ++ "]").isEmpty = false := by
    simp [String.isEmpty_eq_false_iff]
  have dot : "]" ++ ("." ++ "panes[") = "].panes[" := by decide
  rw [splitPath, some_path, sourcePath, ← dot]
  simp [String.append_assoc]

theorem geometriesFrom_outcome (base : Int) (position : Nat) {list : List Window}
    (counted : ∀ w ∈ list, w.Counted) (ne_nil : ∀ w ∈ list, w.panes ≠ []) :
    (∃ geometries, geometriesFrom base position list = .ok geometries) ∨
      ∃ i j w pane source, FirstMisplaced list i j w pane source ∧
        geometriesFrom base position list =
          reject (.splitSourceMissing source w.index pane.index) (sourcePath (position + i) j) := by
  induction list generalizing position with
  | nil => exact .inl ⟨_, rfl⟩
  | cons w rest ih =>
    have here := counted w List.mem_cons_self
    have some_pane := ne_nil w List.mem_cons_self
    have later := ih (position + 1)
      (fun v member => counted v (List.mem_cons_of_mem _ member))
      fun v member => ne_nil v (List.mem_cons_of_mem _ member)
    rw [geometriesFrom]
    rcases Window.ofWindow_outcome here some_pane base ("windows[" ++ Text.ofNat position ++ "]")
      with ⟨g, done⟩ | ⟨j, pane, source, first, refused⟩
    · obtain ⟨-, sourced, -⟩ := (Window.ofWindow_eq_ok here).mp done
      rw [done, ok_bind]
      rcases later with ⟨geometries, all⟩ | ⟨i, j, v, pane, source, first, refused⟩
      · exact .inl ⟨_, by rw [all]; rfl⟩
      · refine .inr ⟨i + 1, j, v, pane, source, ⟨first.window, ?_, first.pane⟩, ?_⟩
        · intro k before u found
          cases k with
          | zero => cases found; exact sourced
          | succ k => exact first.earlier k (by omega) u found
        · rw [refused, show position + 1 + i = position + (i + 1) by omega]
          exact reject_bind _ _ _
    · refine .inr ⟨0, j, w, pane, source, ⟨rfl, fun k before => absurd before (by omega), first⟩, ?_⟩
      rw [refused, splitPath_window]
      exact reject_bind _ _ _

/-- The multiplexer's command line or its options cannot be cut into words. -/
def Unreadable (p : Project) (override : Option String) : Prop :=
  (∃ flaw, Shell.split (p.multiplexer override) = .error flaw) ∨
    ∃ options flaw, p.tmuxOptions = some options ∧ options ≠ "" ∧
      Shell.split options = .error flaw

/-- Neither the command line nor the socket nor the options give a word to call. -/
def Uncallable (p : Project) (override : Option String) : Prop :=
  Shell.split (p.multiplexer override) = .ok [] ∧ (∀ name ∈ p.tmuxSocket, name = "") ∧
    ∀ options ∈ p.tmuxOptions, Shell.split options = .ok []

theorem split_empty : Shell.split "" = .ok [] := rfl

/-- The words that name the socket, if one is named. -/
def socketWords (p : Project) : List String :=
  match orNonempty p.tmuxSocket none with
  | some name => ["-L", name]
  | none => []

theorem socketWords_eq_nil {p : Project} :
    p.socketWords = [] ↔ ∀ name ∈ p.tmuxSocket, name = "" := by
  cases given : p.tmuxSocket with
  | none => simp [socketWords, given, orNonempty]
  | some name =>
    by_cases empty : name = ""
    · simp [socketWords, given, orNonempty, empty]
    · simp [socketWords, given, orNonempty, empty]

theorem tmuxArguments_eq {p : Project} {override : Option String} {words further : List String}
    (command : Shell.split (p.multiplexer override) = .ok words)
    (options : Shell.split (p.tmuxOptions.getD "") = .ok further) :
    p.tmuxArguments override =
      if words ++ p.socketWords ++ further = [] then reject .commandLineEmpty "tmux_command"
      else .ok (words ++ p.socketWords ++ further) := by
  simp only [tmuxArguments, commandLine, command, options, ok_bind]
  split
  · rename_i nothing
    exact (if_pos nothing).symm
  · rename_i something
    exact (if_neg something).symm

theorem uncallable_iff {p : Project} {override : Option String} {words further : List String}
    (command : Shell.split (p.multiplexer override) = .ok words)
    (options : Shell.split (p.tmuxOptions.getD "") = .ok further) :
    p.Uncallable override ↔ words ++ p.socketWords ++ further = [] := by
  rw [List.append_eq_nil_iff, List.append_eq_nil_iff, socketWords_eq_nil, Uncallable, command,
    Except.ok.injEq, and_assoc]
  refine and_congr_right fun _ => and_congr_right fun _ => ?_
  cases given : p.tmuxOptions with
  | none =>
    rw [given, Option.getD_none, split_empty] at options
    simpa using (Except.ok.inj options).symm
  | some text =>
    rw [given, Option.getD_some] at options
    simp [options]

/-- The multiplexer's arguments are there, cannot be read, or come to nothing. -/
theorem tmuxArguments_outcome (p : Project) (override : Option String) :
    ((∃ args, p.tmuxArguments override = .ok args) ∧ ¬p.Unreadable override ∧
      ¬p.Uncallable override) ∨
    (p.Unreadable override ∧ ∃ flaw, p.tmuxArguments override =
      reject (.commandLineUnreadable flaw) "tmux_options") ∨
    (p.Uncallable override ∧ p.tmuxArguments override =
      reject .commandLineEmpty "tmux_command") := by
  cases command : Shell.split (p.multiplexer override) with
  | error flaw =>
    refine .inr (.inl ⟨.inl ⟨flaw, command⟩, flaw, ?_⟩)
    simp only [tmuxArguments, commandLine, command]
    rfl
  | ok words =>
    cases options : Shell.split (p.tmuxOptions.getD "") with
    | error flaw =>
      refine .inr (.inl ⟨.inr ?_, flaw, ?_⟩)
      · cases given : p.tmuxOptions with
        | none =>
          rw [given, Option.getD_none, split_empty] at options
          cases options
        | some text =>
          rw [given, Option.getD_some] at options
          refine ⟨text, flaw, rfl, ?_, options⟩
          rintro rfl
          rw [split_empty] at options
          cases options
      · simp only [tmuxArguments, commandLine, command, options]
        rfl
    | ok further =>
      by_cases empty : words ++ p.socketWords ++ further = []
      · refine .inr (.inr ⟨(uncallable_iff command options).mpr empty, ?_⟩)
        rw [tmuxArguments_eq command options, if_pos empty]
      · refine .inl ⟨⟨_, (tmuxArguments_eq command options).trans (if_neg empty)⟩, ?_,
          fun nothing => empty ((uncallable_iff command options).mp nothing)⟩
        rintro (⟨flaw, unread⟩ | ⟨text, flaw, given, -, unread⟩)
        · rw [command] at unread
          cases unread
        · rw [given, Option.getD_some, unread] at options
          cases options

/-- The session is named, and there are words to call the multiplexer with. -/
def Ready (p : Project) (override : Option String) : Prop :=
  p.sessionName ≠ none ∧ ¬p.Unreadable override ∧ ¬p.Uncallable override

/-- A project whose session cannot be made is invalid. -/
theorem prerequisites_outcome {home : String} {p : Project} (formed : p.WellFormed home)
    (override : Option String) :
    (p.Ready override ∧ ∃ r, p.prerequisites override = .ok r) ∨
      (¬p.Ready override ∧ ∃ problem : Problem, problem.cause.isShape = false ∧
        p.prerequisites override = .error (.problem problem)) := by
  cases named : p.sessionName with
  | none =>
    refine .inr ⟨fun ready => ready.1 named, ⟨.sessionUnnamed, "session_name"⟩, rfl, ?_⟩
    simp only [prerequisites, session, named]
    rfl
  | some name =>
    have session : p.session = .ok name := by
      simp [session, named, orNonempty, (formed.sessionName name named).ne_empty]
    have present : p.sessionName ≠ none := by simp [named]
    simp only [prerequisites, session, ok_bind]
    rcases p.tmuxArguments_outcome override with
      ⟨⟨args, found⟩, clear⟩ | ⟨unreadable, flaw, refused⟩ | ⟨uncallable, refused⟩
    · exact .inl ⟨⟨present, clear⟩, (name, args), by rw [found]; rfl⟩
    · refine .inr ⟨fun ready => ready.2.1 unreadable,
        ⟨.commandLineUnreadable flaw, "tmux_options"⟩, rfl, ?_⟩
      rw [refused]
      rfl
    · refine .inr ⟨fun ready => ready.2.2 uncallable, ⟨.commandLineEmpty, "tmux_command"⟩, rfl, ?_⟩
      rw [refused]
      rfl

theorem ready_of_prerequisites {home : String} {p : Project} (formed : p.WellFormed home)
    {override : Option String} {r : String × List String}
    (known : p.prerequisites override = .ok r) : p.Ready override := by
  rcases prerequisites_outcome formed override with ⟨ready, -⟩ | ⟨-, problem, -, refused⟩
  · exact ready
  · rw [refused] at known
    cases known

/-- Pane `j` of window `i` is misplaced. -/
def Misplaced (p : Project) (i j : Nat) : Prop :=
  ∃ w pane source, p.windows[i]? = some w ∧ w.MisplacedAt j pane source

theorem sourced_iff {p : Project} : (∀ w ∈ p.windows, w.Sourced) ↔ ∀ i j, ¬p.Misplaced i j := by
  constructor
  · rintro sourced i j ⟨w, pane, source, found, misplaced⟩
    exact Window.sourced_iff.mp (sourced w (List.mem_of_getElem? found)) j pane source misplaced
  · intro placed w member
    obtain ⟨i, found⟩ := List.mem_iff_getElem?.mp member
    exact Window.sourced_iff.mpr fun j pane source misplaced =>
      placed i j ⟨w, pane, source, found, misplaced⟩

/-- Pane `j` of window `i` is misplaced, and no other before it is. -/
structure MisplacedFirst (p : Project) (i j : Nat) (w : Window) (pane : Pane) (source : Int) :
    Prop where
  window : p.windows[i]? = some w
  pane : w.MisplacedAt j pane source
  first : ∀ k l, p.Misplaced k l → i < k ∨ i = k ∧ j ≤ l

theorem FirstMisplaced.misplacedFirst {p : Project} {i j : Nat} {w : Window} {pane : Pane}
    {source : Int} (h : FirstMisplaced p.windows i j w pane source) :
    p.MisplacedFirst i j w pane source where
  window := h.window
  pane := h.pane.toMisplacedAt
  first := by
    rintro k l ⟨v, other, late, found, misplaced⟩
    rcases Nat.lt_trichotomy i k with later | rfl | before
    · exact .inl later
    · obtain rfl : w = v := Option.some.inj (h.window.symm.trans found)
      have beyond := misplaced.not_sourcedTo h.pane.earlier
      exact .inr ⟨rfl, by omega⟩
    · exact absurd misplaced (Window.sourced_iff.mp (h.earlier k before v found) l other late)

/-- There is one first misplaced pane. -/
theorem MisplacedFirst.unique {p : Project} {i j k l : Nat} {w v : Window} {pane other : Pane}
    {source late : Int} (h : p.MisplacedFirst i j w pane source)
    (again : p.MisplacedFirst k l v other late) : i = k ∧ j = l ∧ source = late ∧
      w.index = v.index ∧ pane.index = other.index := by
  have after := h.first k l ⟨v, other, late, again.window, again.pane⟩
  have before := again.first i j ⟨w, pane, source, h.window, h.pane⟩
  obtain rfl : i = k := by omega
  obtain rfl : j = l := by omega
  obtain rfl : w = v := Option.some.inj (h.window.symm.trans again.window)
  obtain rfl : pane = other := Option.some.inj (h.pane.declared.symm.trans again.pane.declared)
  exact ⟨rfl, rfl, Option.some.inj (h.pane.named.symm.trans again.pane.named), rfl, rfl⟩

/-- Planning goes one of three ways: the project is invalid from the start, it ends at the first
misplaced pane, or all that is left is to write its indices. -/
theorem plan_outcome {home : String} {p : Project} (formed : p.WellFormed home)
    (override : Option String) :
    (¬p.Ready override ∧ ∃ problem : Problem, problem.cause.isShape = false ∧
      p.plan override = .error (.problem problem)) ∨
    (p.Ready override ∧ ∃ i j w pane source, p.MisplacedFirst i j w pane source ∧
      p.plan override =
        reject (.splitSourceMissing source w.index pane.index) (sourcePath i j)) ∨
    (p.Ready override ∧ (∀ i j, ¬p.Misplaced i j) ∧
      ∃ plan, p.plan override = afterWriting p.indexes plan) := by
  obtain ⟨startup, selected⟩ := formed.startup_selected
  rw [plan_eq formed selected]
  rcases prerequisites_outcome formed override with
    ⟨ready, ⟨session, args⟩, done⟩ | ⟨unready, problem, plain, refused⟩
  · rw [done, ok_bind]
    rcases geometriesFrom_outcome p.paneBaseIndex 0 formed.counted formed.panes_ne_nil with
      ⟨known, found⟩ | ⟨i, j, w, pane, source, first, refused⟩
    · obtain ⟨placed, -⟩ := (geometriesFrom_eq_ok formed.counted).mp found
      simp only [geometries, found, ok_bind]
      exact .inr (.inr ⟨ready, sourced_iff.mp fun w member => (placed w member).2, _, rfl⟩)
    · refine .inr (.inl ⟨ready, i, j, w, pane, source, first.misplacedFirst, ?_⟩)
      rw [geometries, refused, Nat.zero_add]
      exact reject_bind _ _ _
  · exact .inl ⟨unready, problem, plain, by rw [refused]; rfl⟩

theorem plan_ok_iff {home : String} {p : Project} (formed : p.WellFormed home)
    (override : Option String) :
    (∃ plan, p.plan override = .ok plan) ↔ p.Ready override ∧ (∀ i j, ¬p.Misplaced i j) ∧
      ∀ n ∈ p.indexes, ¬Text.IsOverlong n := by
  simp only [Text.not_isOverlong_iff]
  rcases plan_outcome formed override with ⟨missing, problem, -, refused⟩ |
    ⟨-, i, j, w, pane, source, first, refused⟩ | ⟨ready, placed, plan, ended⟩
  · rw [refused]
    exact iff_of_false nofun fun all => missing all.1
  · rw [refused]
    refine iff_of_false ?_ fun all => all.2.1 i j ⟨w, pane, source, first.window, first.pane⟩
    rintro ⟨plan, planned⟩
    exact reject_ne_ok _ _ _ planned
  · rw [ended]
    constructor
    · rintro ⟨other, planned⟩
      exact ⟨ready, placed, (afterWriting_eq_ok.mp planned).1⟩
    · rintro ⟨-, -, writable⟩
      exact ⟨plan, afterWriting_of_writable writable plan⟩

/-- If nothing else is missing, planning ends at the first misplaced pane, window by window. -/
theorem plan_misplaced {home : String} {p : Project} (formed : p.WellFormed home)
    {override : Option String} (ready : p.Ready override) {i j : Nat} {w : Window} {pane : Pane}
    {source : Int} (first : p.MisplacedFirst i j w pane source) :
    p.plan override =
      reject (.splitSourceMissing source w.index pane.index) (sourcePath i j) := by
  rcases plan_outcome formed override with ⟨missing, -⟩ |
    ⟨-, k, l, v, other, late, again, refused⟩ | ⟨-, placed, -⟩
  · exact absurd ready missing
  · obtain ⟨rfl, rfl, rfl, window, own⟩ := first.unique again
    rw [refused, window, own]
  · exact absurd ⟨w, pane, source, first.window, first.pane⟩ (placed i j)

/-- An index, or the source that a pane names, is too long. -/
def HasOverlong (p : Project) : Prop :=
  ∃ n, Text.IsOverlong n ∧
    (n ∈ p.indexes ∨ ∃ w ∈ p.windows, ∃ pane ∈ w.panes, pane.splitFrom = some n)

/-- Only an integer that is too long keeps planning from telling what is wrong. -/
theorem plan_failsOnly {home : String} {p : Project} (formed : p.WellFormed home)
    (override : Option String) :
    FailsOnly (Failure.Among fun fault => fault = .unwritable ∧ p.HasOverlong)
      (p.plan override) := by
  rcases plan_outcome formed override with ⟨-, problem, -, refused⟩ |
    ⟨-, i, j, w, pane, source, first, refused⟩ | ⟨-, -, plan, ended⟩
  · rw [refused]
    exact .error trivial
  · rw [refused]
    refine .rejectNumbers trivial fun n member long => ⟨rfl, n, Text.isOverlong_iff.mpr long, ?_⟩
    obtain rfl : n = source := List.mem_singleton.mp member
    exact .inr ⟨w, List.mem_of_getElem? first.window, pane,
      List.mem_of_getElem? first.pane.declared, first.pane.named⟩
  · rw [ended, afterWriting]
    refine FailsOnly.bind (.ensureWritable fun n member long => ?_) fun _ _ => .ok _
    exact ⟨rfl, n, Text.isOverlong_iff.mpr long, .inl member⟩

theorem plan_unwritable_iff {home : String} {p : Project} (formed : p.WellFormed home)
    (override : Option String) :
    p.plan override = .error (.fault .unwritable) ↔ p.Ready override ∧
      ((∃ i j w pane source, p.MisplacedFirst i j w pane source ∧ Text.IsOverlong source) ∨
      (∀ i j, ¬p.Misplaced i j) ∧ ∃ n ∈ p.indexes, Text.IsOverlong n) := by
  simp only [Text.isOverlong_iff]
  rcases plan_outcome formed override with ⟨missing, problem, -, refused⟩ |
    ⟨ready, i, j, w, pane, source, first, refused⟩ | ⟨ready, placed, plan, ended⟩
  · rw [refused]
    exact iff_of_false nofun fun all => missing all.1
  · rw [refused]
    rcases reject_outcome (.splitSourceMissing source w.index pane.index) (sourcePath i j) with
      ⟨writable, told⟩ | ⟨n, member, long, told⟩
    · rw [told]
      refine iff_of_false nofun ?_
      rintro ⟨-, ⟨k, l, v, other, late, again, long⟩ | ⟨placed, -⟩⟩
      · obtain ⟨-, -, rfl, -⟩ := first.unique again
        exact Bool.false_ne_true (long.symm.trans (writable source List.mem_cons_self))
      · exact placed i j ⟨w, pane, source, first.window, first.pane⟩
    · obtain rfl : n = source := List.mem_singleton.mp member
      exact iff_of_true told ⟨ready, .inl ⟨i, j, w, pane, n, first, long⟩⟩
  · rw [ended, afterWriting_eq_unwritable]
    constructor
    · exact fun long => ⟨ready, .inr ⟨placed, long⟩⟩
    · rintro ⟨-, ⟨i, j, w, pane, source, first, -⟩ | ⟨-, long⟩⟩
      · exact absurd ⟨w, pane, source, first.window, first.pane⟩ (placed i j)
      · exact long

/-- A project that was built is planned, it is invalid, or an integer has too many digits to be
written: the source that the first misplaced pane names, or, if no pane is misplaced, an index.
Its name, its multiplexer, the sources of its panes and its indices settle which, and the first
misplaced pane is the one that is reported. The source of a first pane has no say. -/
theorem plan_refusals {home : String} {wishes : Document.Wishes} {document : Tree} {p : Project}
    (built : (Document.build home wishes document).result = .ok p) (override : Option String) :
    ((∃ plan, p.plan override = .ok plan) ∨ (∃ problem : Problem, problem.cause.isShape = false ∧
      p.plan override = .error (.problem problem)) ∨
      p.plan override = .error (.fault .unwritable)) ∧
    (p.plan override = .error (.fault .unwritable) ↔ p.Ready override ∧
      ((∃ i j w pane source, p.MisplacedFirst i j w pane source ∧ Text.IsOverlong source) ∨
      (∀ i j, ¬p.Misplaced i j) ∧ ∃ n ∈ p.indexes, Text.IsOverlong n)) ∧
    ((∃ failure, p.plan override = .error failure) ↔ p.sessionName = none ∨
      p.Unreadable override ∨ p.Uncallable override ∨ (∃ i j, p.Misplaced i j) ∨
      ∃ n ∈ p.indexes, Text.IsOverlong n) ∧
    (p.Ready override → ∀ i j w pane source, p.MisplacedFirst i j w pane source →
      ¬Text.IsOverlong source → p.plan override = .error (.problem
        ⟨.splitSourceMissing source w.index pane.index, sourcePath i j⟩)) ∧
    ∀ sources, (p.withFirstSources sources).plan override = p.plan override := by
  have formed := Document.build_wellFormed built
  refine ⟨?_, plan_unwritable_iff formed override, ?_, ?_,
    fun sources => p.plan_withFirstSources sources override⟩
  · rcases plan_outcome formed override with ⟨-, problem, plain, refused⟩ |
      ⟨-, i, j, w, pane, source, -, refused⟩ | ⟨-, -, plan, ended⟩
    · exact .inr (.inl ⟨problem, plain, refused⟩)
    · rw [refused]
      rcases reject_outcome (.splitSourceMissing source w.index pane.index) (sourcePath i j) with
        ⟨-, told⟩ | ⟨-, -, -, told⟩
      · exact .inr (.inl ⟨_, rfl, told⟩)
      · exact .inr (.inr told)
    · rw [ended, afterWriting]
      rcases ensureWritable_outcome p.indexes with ⟨-, done⟩ | ⟨-, -, -, failed⟩
      · exact .inl ⟨plan, by rw [done]; rfl⟩
      · exact .inr (.inr (by rw [failed]; rfl))
  · have failed : (∃ failure, p.plan override = .error failure) ↔
        ¬∃ plan, p.plan override = .ok plan := by
      cases p.plan override <;> simp
    rw [failed, plan_ok_iff formed, Ready]
    simp only [not_and_or, not_not, not_forall, ne_eq, exists_prop, or_assoc]
  · intro ready i j w pane source first short
    rw [plan_misplaced formed ready first]
    refine reject_eq (fun n member => ?_) _
    obtain rfl : n = source := List.mem_singleton.mp member
    exact Text.not_isOverlong_iff.mp short

/-- The second and the third pane name sources that come too late; the first one may. -/
def lateDocument : Tree := .mapping [
  (.text "name", .text "late"), (.text "windows", .list [.null, .mapping [(.text "panes", .list [
    .mapping [(.text "split_from", .int 7)], .mapping [(.text "split_from", .int 3)],
    .mapping [(.text "split_from", .int 2)]])]])]

def lateProject : Project where
  sessionName := some "late"
  windows := [{}, { index := 2, panes := [{ splitFrom := some 7 },
    { index := 2, splitFrom := some 3 }, { index := 3, splitFrom := some 2 }] }]

theorem build_lateDocument :
    (Document.build "/home/ann" {} lateDocument).result = .ok lateProject :=
  eq_ok_of_toOption (by decide +kernel)

theorem plan_refusals_late :
    lateProject.plan none =
      .error (.problem ⟨.splitSourceMissing 3 2 2, "windows[1].panes[1].split_from"⟩) := by
  have known : lateProject.prerequisites none = .ok ("late", ["tmux"]) :=
    eq_ok_of_toOption (by decide +kernel)
  have ready := ready_of_prerequisites (Document.build_wellFormed build_lateDocument) known
  have misplaced : ({ index := 2, panes := [{ splitFrom := some 7 },
      { index := 2, splitFrom := some 3 }, { index := 3, splitFrom := some 2 }] } :
        Window).MisplacedAt 1 { index := 2, splitFrom := some 3 } 3 :=
    ⟨rfl, by decide, rfl, by decide⟩
  obtain ⟨-, -, -, reported, -⟩ := plan_refusals build_lateDocument none
  have short : ¬Text.IsOverlong 3 := Text.not_isOverlong_iff.mpr (by decide +kernel)
  refine reported ready 1 1 _ _ 3 ⟨rfl, misplaced, ?_⟩ short
  rintro k l ⟨w, pane, source, found, elsewhere⟩
  have further := elsewhere.further
  match k with
  | 0 =>
    cases found
    have declared := elsewhere.declared
    match l with
    | l + 1 => exact nomatch declared
  | 1 => exact .inr ⟨rfl, further⟩
  | k + 2 => exact .inl (by omega)

/-- The second pane names a source whose number is too long. -/
def overlongDocument : Tree := .mapping [
  (.text "name", .text "late"), (.text "windows", .list [.mapping [(.text "panes", .list [
    .null, .mapping [(.text "split_from", .int Text.firstOverlong)]])]])]

def overlongProject : Project where
  sessionName := some "late"
  windows := [{ panes := [{}, { index := 2, splitFrom := some Text.firstOverlong }] }]

/-- That it is misplaced is not told. -/
theorem plan_overlongProject :
    (Document.build "/home/ann" {} overlongDocument).result = .ok overlongProject ∧
      overlongProject.Misplaced 0 1 ∧
      overlongProject.plan none = .error (.fault .unwritable) := by
  have built : (Document.build "/home/ann" {} overlongDocument).result = .ok overlongProject :=
    eq_ok_of_toOption (by decide +kernel)
  have formed := Document.build_wellFormed built
  have known : overlongProject.prerequisites none = .ok ("late", ["tmux"]) :=
    eq_ok_of_toOption (by decide +kernel)
  have late : ((1 : Nat) : Int) ≤ Text.firstOverlong := by decide +kernel
  have misplaced : overlongProject.Misplaced 0 1 := ⟨_, _, _, rfl, rfl, Nat.one_pos, rfl, late⟩
  refine ⟨built, misplaced, (plan_unwritable_iff formed none).mpr
    ⟨ready_of_prerequisites formed known, .inl ⟨0, 1, _, _, _, ⟨rfl, ⟨rfl, Nat.one_pos, rfl, late⟩,
      ?_⟩, Text.isOverlong_firstOverlong⟩⟩⟩
  rintro k l ⟨w, pane, source, -, elsewhere⟩
  have further := elsewhere.further
  omega

end Project
end SessionPlan
