import SessionPlan.Proofs.Plan.Calls
import SessionPlan.Proofs.Text.Lines

/-! Where each command of a plan is one line. Hooks and typed lines are one line each as they are
declared, but names, titles, layouts and directories come into the commands as they stand, and
placeholders bring in what they stand for. -/
namespace SessionPlan
open SessionPlan.Text

namespace Shell

/-- Quoting adds nothing but quotes. -/
theorem mem_quoteList {c : Char} (single : c ≠ '\'') (double : c ≠ '"') (s : List Char) :
    c ∈ quoteList s ↔ c ∈ s := by
  unfold quoteList
  split
  · rename_i empty
    simp [List.isEmpty_iff.mp empty, single]
  · split
    · rfl
    · have quoted (d : Char) : c ∈ quotedChar d ↔ c = d := by
        by_cases quote : d = '\''
        · simp [quotedChar, quote, single, double]
        · simp [quotedChar, quote]
      change c ∈ '\'' :: s.flatMap quotedChar ++ ['\''] ↔ c ∈ s
      simp [quoted, single]

theorem oneLine_quote (s : String) : OneLine (quote s) ↔ OneLine s := by
  rw [OneLine, quote, String.toList_ofList, mem_quoteList (by decide) (by decide)]
  rfl

theorem oneLine_joinWords (args : List String) :
    OneLine (joinWords args) ↔ AllOneLine args := by
  match args with
  | [] => simp +decide
  | [arg] => simp [joinWords, join, oneLine_quote]
  | arg :: next :: further =>
    have later := oneLine_joinWords (next :: further)
    have line : joinWords (arg :: next :: further) =
        quote arg ++ " " ++ joinWords (next :: further) := by
      simp [joinWords, join]
    have space : OneLine " " := by decide
    rw [line, oneLine_append, oneLine_append, later, oneLine_quote, allOneLine_cons]
    simp [space]

end Shell

namespace Command

theorem oneLine_text (c : Command) : OneLine c.text ↔ AllOneLine c.words :=
  Shell.oneLine_joinWords c.words

end Command

theorem Document.IsSize.oneLine {size : String} (h : Document.IsSize size) : OneLine size := by
  intro feed
  have digits := h.digits
  simp only [isDigits, Bool.and_eq_true, List.all_eq_true] at digits
  have clear : '\n' ∉ (Document.sizeDigits size).toList := fun member =>
    absurd (digits.2 _ member) (by decide)
  unfold Document.sizeDigits at clear
  split at clear
  · rename_i percent
    rw [String.toList_ofList] at clear
    rw [← List.dropLast_append_getLast? _ percent] at feed
    rcases List.mem_append.mp feed with inside | last
    · exact clear inside
    · exact absurd (List.mem_singleton.mp last) (by decide)
  · exact clear feed

/-- Every line that is run or typed in a pane. -/
def ResolvedPane.lines (r : ResolvedPane) : List String := r.onCreate ++ r.commands ++ r.postCreate

theorem Project.WellFormed.resolve_oneLine {home : String} {p : Project}
    (formed : p.WellFormed home) {w : Window} (member : w ∈ p.windows) {pane : Pane}
    (declared : pane ∈ w.panes) : AllOneLine (p.resolve w pane).lines := by
  obtain ⟨number, window⟩ := formed.window member
  obtain ⟨j, place⟩ := List.mem_iff_getElem?.mp declared
  have own := (window.panes j pane place).lines
  have whole (line : String) (known : line ∈ p.lines ∨ line ∈ w.lines ∨ line ∈ pane.lines) :
      OneLine line := by
    rcases known with known | known | known
    · exact (formed.lines line known).2
    · exact (window.lines line known).2
    · exact (own line known).2
  intro line listed
  refine whole line ?_
  simp only [ResolvedPane.lines, Project.resolve, List.mem_append] at listed
  simp only [Project.lines, Window.lines, Pane.lines, List.mem_append]
  tauto

/-- What holds of items with their numbers, when the number is of no account. -/
theorem forall_mem_zipIdx_iff {α : Type} {items : List α} {n : Nat} {Q : α × Nat → Prop}
    {P : α → Prop} (same : ∀ a i, (a, i) ∈ items.zipIdx n → (Q (a, i) ↔ P a)) :
    (∀ e ∈ items.zipIdx n, Q e) ↔ ∀ a ∈ items, P a := by
  have unnumbered : (∀ e ∈ items.zipIdx n, P e.1) ↔ ∀ a ∈ items, P a := by
    rw [← List.forall_mem_map, List.zipIdx_map_fst]
  refine Iff.trans (forall₂_congr ?_) unnumbered
  rintro ⟨a, i⟩ member
  exact same a i member

/-- Filling in what is one line itself leaves lines whole and broken ones broken. -/
theorem oneLine_filled (text : String) {placeholder value : String} (nonempty : placeholder ≠ "")
    (plain : OneLine placeholder) (whole : OneLine value) :
    OneLine (Text.replace text placeholder value) ↔ OneLine text := by
  rw [oneLine_replace nonempty plain]
  simp [whole]

namespace Planner

theorem allOneLine_flagged {flag : String} (plain : OneLine flag) (value : Option String) :
    AllOneLine (flagged flag value) ↔ ∀ s ∈ value, OneLine s := by
  cases value <;> simp [flagged, plain]

/-- Every word of every call is one line. -/
def OneLineCalls (calls : List (List String)) : Prop := ∀ call ∈ calls, AllOneLine call

@[simp] theorem oneLineCalls_nil : OneLineCalls [] := by simp [OneLineCalls]

@[simp] theorem oneLineCalls_cons {call : List String} {calls : List (List String)} :
    OneLineCalls (call :: calls) ↔ AllOneLine call ∧ OneLineCalls calls :=
  List.forall_mem_cons

@[simp] theorem oneLineCalls_append {calls later : List (List String)} :
    OneLineCalls (calls ++ later) ↔ OneLineCalls calls ∧ OneLineCalls later :=
  List.forall_mem_append

theorem oneLineCalls_map {α : Type} {call : α → List String} {items : List α} :
    OneLineCalls (items.map call) ↔ ∀ a ∈ items, AllOneLine (call a) :=
  List.forall_mem_map

theorem oneLineCalls_flatMap {α : Type} {calls : α → List (List String)} {items : List α} :
    OneLineCalls (items.flatMap calls) ↔ ∀ a ∈ items, OneLineCalls (calls a) :=
  List.forall_mem_flatMap

variable {pl : Planner}

/-- Filling the line in does not break it, as far as the multiplexer goes. -/
def Fills (pl : Planner) (line : String) : Prop :=
  OneLine pl.tmux ∨ ¬"__TMUX__".toList <:+: line.toList

/-- What has to be on one line for the calls of a pane to be. -/
structure PaneUnbroken (pl : Planner) (w : Window) (pane : Pane) : Prop where
  name : ∀ s ∈ pane.name, OneLine s
  directory : ∀ d ∈ pl.directory w pane, OneLine d
  lines : ∀ line ∈ (pl.project.resolve w pane).lines, pl.Fills line

/-- What has to be on one line for the calls of a window to be. -/
structure WindowUnbroken (pl : Planner) (w : Window) : Prop where
  name : ∀ s ∈ w.name, OneLine s
  layout : ∀ s ∈ w.layout, OneLine s
  lines : ∀ line ∈ w.onCreate ++ w.postCreate, pl.Fills line
  panes : ∀ pane ∈ w.panes, pl.PaneUnbroken w pane

/-- What has to be on one line for all calls of a plan to be. -/
structure Unbroken (pl : Planner) : Prop where
  session : OneLine pl.session
  lines : ∀ line ∈ pl.project.postCreate, pl.Fills line
  windows : ∀ w ∈ pl.project.windows, pl.WindowUnbroken w

/-! ### Calls of one line -/

section Calls
variable (session : OneLine pl.session)
include session

theorem oneLine_windowWord (w : Window) : OneLine (pl.windowWord w) :=
  oneLine_append.mpr ⟨oneLine_append.mpr ⟨session, by decide⟩, oneLine_repr _⟩

theorem oneLine_paneWord (w : Window) (live : Int) : OneLine (pl.paneWord w live) :=
  oneLine_append.mpr ⟨oneLine_append.mpr ⟨oneLine_windowWord session w, by decide⟩,
    oneLine_repr _⟩

/-- Hooks and typed lines are one line each as they are declared. -/
theorem oneLine_sessionLine {line : String} (whole : OneLine line) :
    OneLine (pl.sessionLine line) ↔ pl.Fills line := by
  rw [sessionLine, oneLine_filled _ (by decide) (by decide) session,
    oneLine_replace (by decide) (by decide)]
  exact and_iff_right whole

theorem oneLine_windowLine (w : Window) {line : String} (whole : OneLine line) :
    OneLine (pl.windowLine w line) ↔ pl.Fills line := by
  rw [windowLine, oneLine_filled _ (by decide) (by decide) (oneLine_windowWord session w),
    oneLine_sessionLine session whole]

theorem oneLine_paneLine (w : Window) (live : Int) {line : String} (whole : OneLine line) :
    OneLine (pl.paneLine w live line) ↔ pl.Fills line := by
  rw [paneLine, oneLine_filled _ (by decide) (by decide) (oneLine_paneWord session w live),
    oneLine_windowLine session w whole]

theorem oneLine_titleCalls (w : Window) (live : Int) (pane : Pane) :
    OneLineCalls (titleCalls (pl.paneWord w live) pane) ↔ ∀ s ∈ pane.name, OneLine s := by
  have target := oneLine_paneWord session w live
  cases name : pane.name <;> simp +decide [titleCalls, name, target]

theorem oneLine_openingCalls (w : Window) (pane : Pane) (first : Bool) :
    OneLineCalls (pl.openingCalls w pane first) ↔
      (∀ s ∈ w.name, OneLine s) ∧ (∀ d ∈ pl.directory w pane, OneLine d) ∧
        ∀ s ∈ pane.name, OneLine s := by
  have target := oneLine_windowWord session w
  have titles := oneLine_titleCalls session w pl.project.paneBaseIndex pane
  have name := allOneLine_flagged (show OneLine "-n" by decide) w.name
  have directory := allOneLine_flagged (show OneLine "-c" by decide) (pl.directory w pane)
  cases first <;>
    simp +decide [openingCalls, session, target, titles, oneLine_repr, name, directory, and_assoc]

theorem oneLine_splittingCalls (w : Window) {pane : Pane} (j : Nat)
    (sized : ∀ s ∈ pane.splitSize, Document.IsSize s) :
    OneLineCalls (pl.splittingCalls w pane j) ↔
      (∀ d ∈ pl.directory w pane, OneLine d) ∧ ∀ s ∈ pane.name, OneLine s := by
  have source := oneLine_paneWord session w (pl.project.paneBaseIndex + w.splitPosition j)
  have titles := oneLine_titleCalls session w (pl.project.paneBaseIndex + w.splitPosition j + 1)
    pane
  have directory := allOneLine_flagged (show OneLine "-c" by decide) (pl.directory w pane)
  have flag (direction : SplitDirection) : OneLine (directionWord direction) := by
    cases direction <;> decide
  have size : OneLine (pane.splitSize.getD "50%") := by
    cases found : pane.splitSize with
    | none => decide
    | some s => exact (sized s found).oneLine
  cases arranged : w.layout.isSome <;>
    simp +decide [splittingCalls, arranged, source, titles, directory, flag, size]

omit session in
/-- Doubling the hashes of a hook does not break it. -/
theorem oneLine_hookCalls {line : String → String} {hooks : List String} (whole : AllOneLine hooks)
    (fills : ∀ hook, OneLine hook → (OneLine (line hook) ↔ pl.Fills hook)) :
    OneLineCalls (hookCalls line hooks) ↔ ∀ hook ∈ hooks, pl.Fills hook := by
  rw [hookCalls, oneLineCalls_map]
  refine forall₂_congr fun hook member => ?_
  rw [← fills hook (whole hook member)]
  have doubled := oneLine_filled (line hook) (show "#" ≠ "" by decide)
    (show OneLine "#" by decide) (show OneLine "##" by decide)
  simp +decide [doubled]

theorem oneLine_paneCalls (w : Window) {pane : Pane} (j : Nat)
    (whole : AllOneLine (pl.project.resolve w pane).lines) :
    OneLineCalls (pl.paneCalls w pane j) ↔
      ∀ line ∈ (pl.project.resolve w pane).lines, pl.Fills line := by
  have target := oneLine_paneWord session w (pl.live w j)
  simp only [ResolvedPane.lines, allOneLine_append] at whole
  obtain ⟨⟨onCreate, typed⟩, postCreate⟩ := whole
  have fills (hook : String) (whole : OneLine hook) :=
    oneLine_paneLine session w (pl.live w j) whole
  have created := oneLine_hookCalls onCreate fills
  have ended := oneLine_hookCalls postCreate fills
  have typing : OneLineCalls ((pl.project.resolve w pane).commands.map fun line =>
      ["send-keys", "-t", pl.paneWord w (pl.live w j), pl.paneLine w (pl.live w j) line, "C-m"]) ↔
        ∀ line ∈ (pl.project.resolve w pane).commands, pl.Fills line := by
    rw [oneLineCalls_map]
    refine forall₂_congr fun line member => ?_
    rw [← oneLine_paneLine session w (pl.live w j) (typed line member)]
    simp +decide [target]
  have cleared : OneLineCalls (if pane.clear then
      [["send-keys", "-t", pl.paneWord w (pl.live w j), "C-l"]] else []) := by
    cases pane.clear <;> simp +decide [target]
  rw [ResolvedPane.lines, List.forall_mem_append, List.forall_mem_append, ← created, ← ended,
    ← typing]
  simp only [paneCalls, oneLineCalls_append, cleared, and_true]
  rfl

end Calls

section Windows
variable {home : String} {number : Int}

theorem oneLine_splittings (session : OneLine pl.session) {w : Window}
    (formed : w.WellFormed home number pl.project.paneBaseIndex) :
    OneLineCalls ((w.panes.tail.zipIdx 1).flatMap fun (pane, j) => pl.splittingCalls w pane j) ↔
      ∀ pane ∈ w.panes.tail,
        (∀ d ∈ pl.directory w pane, OneLine d) ∧ ∀ s ∈ pane.name, OneLine s := by
  rw [oneLineCalls_flatMap]
  exact forall_mem_zipIdx_iff fun pane j later => oneLine_splittingCalls session w j
    (formed.panes j pane (further_declared later).2).splitSize

theorem oneLine_furnishing (session : OneLine pl.session) {w : Window}
    (whole : ∀ pane ∈ w.panes, AllOneLine (pl.project.resolve w pane).lines) :
    OneLineCalls (w.panes.zipIdx.flatMap fun (pane, j) => pl.paneCalls w pane j) ↔
      ∀ pane ∈ w.panes, ∀ line ∈ (pl.project.resolve w pane).lines, pl.Fills line := by
  rw [oneLineCalls_flatMap]
  exact forall_mem_zipIdx_iff fun pane j member =>
    oneLine_paneCalls session w j (whole pane (List.fst_mem_of_mem_zipIdx member))

theorem oneLine_windowCalls (session : OneLine pl.session) {w : Window}
    (formed : w.WellFormed home number pl.project.paneBaseIndex)
    (whole : ∀ pane ∈ w.panes, AllOneLine (pl.project.resolve w pane).lines) (first : Bool) :
    OneLineCalls (pl.windowCalls w first) ↔ pl.WindowUnbroken w := by
  obtain ⟨pane, further, panes⟩ := List.exists_cons_of_ne_nil formed.panes_ne_nil
  have opened : OneLineCalls (w.panes.head?.toList.flatMap fun pane =>
      pl.openingCalls w pane first) ↔ (∀ s ∈ w.name, OneLine s) ∧
        (∀ d ∈ pl.directory w pane, OneLine d) ∧ ∀ s ∈ pane.name, OneLine s := by
    rw [panes]
    simpa using oneLine_openingCalls session w pane first
  have split := oneLine_splittings session formed
  have furnished := oneLine_furnishing session whole
  have arranged : OneLineCalls (w.layout.toList.map fun layout =>
      ["select-layout", "-t", pl.windowWord w, layout]) ↔ ∀ s ∈ w.layout, OneLine s := by
    have target := oneLine_windowWord session w
    cases layout : w.layout <;> simp +decide [target]
  have own : AllOneLine w.onCreate ∧ AllOneLine w.postCreate := by
    constructor
    all_goals
      intro line member
      exact (formed.lines line (by simp [Window.lines, member])).2
  have fills (hook : String) (whole : OneLine hook) := oneLine_windowLine session w whole
  have created := oneLine_hookCalls own.1 fills
  have ended := oneLine_hookCalls own.2 fills
  have listed : ∀ other, other ∈ w.panes ↔ other = pane ∨ other ∈ w.panes.tail := by
    simp [panes]
  simp only [windowCalls, oneLineCalls_append, opened, split, arranged, furnished]
  constructor
  · rintro ⟨⟨⟨⟨⟨⟨name, directory, title⟩, others⟩, layout⟩, onCreate⟩, lines⟩, postCreate⟩
    refine ⟨name, layout, List.forall_mem_append.mpr ⟨created.mp onCreate, ended.mp postCreate⟩,
      fun other member => ?_⟩
    rcases (listed other).mp member with rfl | later
    · exact ⟨title, directory, lines other member⟩
    · exact ⟨(others other later).2, (others other later).1, lines other member⟩
  · intro unbroken
    obtain ⟨onCreate, postCreate⟩ := List.forall_mem_append.mp unbroken.lines
    have first := unbroken.panes pane ((listed pane).mpr (.inl rfl))
    have others := fun other later => unbroken.panes other ((listed other).mpr (.inr later))
    exact ⟨⟨⟨⟨⟨⟨unbroken.name, first.directory, first.name⟩,
      fun other later => ⟨(others other later).directory, (others other later).name⟩⟩,
      unbroken.layout⟩, created.mpr onCreate⟩,
      fun other member => (unbroken.panes other member).lines⟩, ended.mpr postCreate⟩

theorem oneLine_windows (session : OneLine pl.session) (formed : pl.project.WellFormed home) :
    OneLineCalls (pl.project.windows.zipIdx.flatMap fun (w, i) => pl.windowCalls w (i == 0)) ↔
      ∀ w ∈ pl.project.windows, pl.WindowUnbroken w := by
  rw [oneLineCalls_flatMap]
  refine forall_mem_zipIdx_iff fun w i numbered => ?_
  have member := List.fst_mem_of_mem_zipIdx numbered
  obtain ⟨number, window⟩ := formed.window member
  exact oneLine_windowCalls session window
    (fun pane declared => formed.resolve_oneLine member declared) (i == 0)

/-- The calls of a plan are one line each just where nothing that comes into them is broken. -/
theorem oneLine_calls (formed : pl.project.WellFormed home) (startup : Window) :
    OneLineCalls (pl.calls startup) ↔ pl.Unbroken := by
  by_cases session : OneLine pl.session
  · have windows := oneLine_windows session formed
    have hooks : AllOneLine pl.project.postCreate := fun line member =>
      (formed.lines line (by simp [Project.lines, member])).2
    have ended := oneLine_hookCalls hooks fun _ => oneLine_sessionLine session
    have window := oneLine_windowWord session startup
    have pane := oneLine_paneWord session startup
    have attached : OneLineCalls (if pl.project.attach then [["attach-session", "-t", pl.session]]
        else []) := by
      cases pl.project.attach <;> simp +decide [session]
    have selected (live : Int) : OneLineCalls [["select-window", "-t", pl.windowWord startup],
        ["select-pane", "-t", pl.paneWord startup live]] := by
      simp +decide [window, pane]
    simp only [calls, oneLineCalls_append, windows, selected, attached, and_true]
    constructor
    · rintro ⟨windows, lines⟩
      exact ⟨session, ended.mp lines, windows⟩
    · intro unbroken
      exact ⟨unbroken.windows, ended.mpr unbroken.lines⟩
  · -- the selection names the session in any case
    have broken : ¬OneLineCalls (pl.calls startup) := by
      intro whole
      have selection := whole ["select-window", "-t", pl.windowWord startup] (by simp [calls])
      have target := selection (pl.windowWord startup) (by simp)
      exact session (oneLine_append.mp (oneLine_append.mp target).1).1
    exact iff_of_false broken fun unbroken => session unbroken.session

end Windows

end Planner

namespace Plan

/-- The texts of all commands in order. -/
def lines (plan : Plan) : List String := (plan.groups.flatMap Group.commands).map Command.text

theorem source_eq (plan : Plan) :
    plan.source true = String.join (plan.lines.map (· ++ "\n")) := by
  simp [source, lines, Function.comp_def]

end Plan

/-- The commands of a plan are one line each just where nothing that comes into them is broken. -/
theorem Project.plan_lines {home : String} {p : Project} {override : Option String} {plan : Plan}
    (formed : p.WellFormed home) (planned : p.plan override = .ok plan) :
    AllOneLine plan.lines ↔ (p.planner plan.sessionName plan.tmuxArgs).Unbroken := by
  obtain ⟨startup, selected⟩ := formed.startup_selected
  obtain ⟨session, args, -, -, -, rfl⟩ := (plan_eq_ok formed selected).mp planned
  have calls : Planner.OneLineCalls ((p.planner session args).calls startup) ↔ _ :=
    Planner.oneLine_calls formed startup
  have words : _ = (p.planner session args).calls startup := Planner.words_schedule formed startup
  rw [← calls, ← words, Planner.OneLineCalls, List.forall_mem_map, AllOneLine, Plan.lines,
    List.forall_mem_map]
  exact forall₂_congr fun c _ => c.oneLine_text

end SessionPlan
