import SessionPlan.Proofs.Document.Scalars
import SessionPlan.Document.Build

/-! What every project that was built from a document is like. Planning and writing rely on it
without looking again. -/
namespace SessionPlan
open SessionPlan.Text

/-- Lines to run in a pane, of its own. -/
def Pane.lines (p : Pane) : List String := p.onCreate ++ p.postCreate ++ p.commands

def Window.lines (w : Window) : List String :=
  w.onCreate ++ w.postCreate ++ w.onPaneCreate ++ w.postPaneCreate ++ w.paneCommands

def Project.lines (p : Project) : List String :=
  p.onStart ++ p.onFirstStart ++ p.onRestart ++ p.onExit ++ p.onStop ++ p.postCreate ++
    p.onPaneCreate ++ p.postPaneCreate ++ p.paneCommands

theorem Project.mem_of_window? {p : Project} {selector : Option Selector} {w : Window}
    (h : p.window? selector = some w) : w ∈ p.windows := by
  cases selector with
  | none => exact List.mem_of_head? h
  | some selector => exact List.mem_of_find?_eq_some h

structure Pane.WellFormed (home : String) (number : Int) (p : Pane) : Prop where
  index : p.index = number
  name : ∀ s ∈ p.name, s ≠ ""
  workingDir : ∀ d ∈ p.workingDir, Path.Resolved home d
  splitFrom : ∀ n ∈ p.splitFrom, 0 ≤ n
  splitSize : ∀ s ∈ p.splitSize, Document.IsSize s
  lines : ∀ c ∈ p.lines, Document.IsLine c

/-- The panes are numbered from `base`. In a window with a layout none of them has a split of its
own. -/
structure Window.WellFormed (home : String) (number base : Int) (w : Window) : Prop where
  index : w.index = number
  name : ∀ s ∈ w.name, Document.IsTargetName s
  workingDir : ∀ d ∈ w.workingDir, Path.Resolved home d
  layout : ∀ s ∈ w.layout, s ≠ "" ∧ IsTrimmed s
  lines : ∀ c ∈ w.lines, Document.IsLine c
  panes_ne_nil : w.panes ≠ []
  panes : ∀ (j : Nat) (p : Pane), w.panes[j]? = some p → p.WellFormed home (base + j)
  unsplit : w.layout.isSome → ∀ p ∈ w.panes, p.split = none ∧ p.splitSize = none

structure Project.WellFormed (home : String) (p : Project) : Prop where
  sessionName : ∀ s ∈ p.sessionName, Document.IsTargetName s
  workingDir : ∀ d ∈ p.workingDir, Path.Resolved home d
  windowBase : 0 ≤ p.windowBaseIndex
  paneBase : 0 ≤ p.paneBaseIndex
  lines : ∀ c ∈ p.lines, Document.IsLine c
  windows_ne_nil : p.windows ≠ []
  windows : ∀ (i : Nat) (w : Window), p.windows[i]? = some w →
    w.WellFormed home (p.windowBaseIndex + i) p.paneBaseIndex
  /-- A window is selected by name only if its name is no number. -/
  selector : ∀ s, p.startupWindow = some (.name s) → isDigits s = false
  startupPane : ∀ n ∈ p.startupPane, 0 ≤ n
  startup : ∃ w, p.window? p.startupWindow = some w ∧
    ∀ n ∈ p.startupPane, p.paneBaseIndex ≤ n ∧ n < p.paneBaseIndex + w.panes.length

namespace Document

theorem paneOfFields_wellFormed {home path : String} {number : Int}
    {fields : PaneField → Option Tree} {p : Pane}
    (h : paneOfFields home path number fields = .ok p) : p.WellFormed home number := by
  simp only [paneOfFields, bind_eq_ok, pure_eq_ok] at h
  obtain ⟨name, -, dir, dirRead, split, -, source, sourceRead, size, sizeRead, clear, -,
    onCreate, onCreateRead, postCreate, postCreateRead, typed, typedRead, rfl⟩ := h
  exact {
    index := rfl
    name := nonempty_ne_empty
    workingDir := optionalDirectory_resolved dirRead
    splitFrom := count_nonneg sourceRead
    splitSize := splitSize_isSize sizeRead
    lines := by
      intro c member
      simp only [Pane.lines, List.mem_append] at member
      rcases member with (member | member) | member
      · exact commands_isLine onCreateRead c member
      · exact commands_isLine postCreateRead c member
      · exact commands_isLine typedRead c member }

/-- A pane that nothing but commands is known of. -/
theorem pane_of_commands_wellFormed (home : String) (number : Int) {typed : List String}
    (h : ∀ c ∈ typed, IsLine c) :
    Pane.WellFormed home number { index := number, commands := typed } where
  index := rfl
  name := by simp
  workingDir := by simp
  splitFrom := by simp
  splitSize := by simp
  lines := by simpa [Pane.lines] using h

theorem pane_wellFormed {home path : String} {number : Int} {entry : Tree} {p : Pane}
    (h : (pane home path number entry).result = .ok p) : p.WellFormed home number := by
  unfold pane at h
  split at h
  · cases h
    exact pane_of_commands_wellFormed home number (by simp)
  · simp only [Noted.result_bind_eq_ok, Noted.result_liftM] at h
    obtain ⟨pairs, -, fields, -, read⟩ := h
    exact paneOfFields_wellFormed read
  · simp only [Noted.result_bind_eq_ok, Noted.result_liftM, Noted.result_pure, Except.ok.injEq] at h
    obtain ⟨typed, read, rfl⟩ := h
    exact pane_of_commands_wellFormed home number (commands_isLine read)
  · split at h
    · simp only [Noted.result_bind_eq_ok, Noted.result_liftM, Noted.result_pure, Except.ok.injEq]
        at h
      obtain ⟨typed, read, rfl⟩ := h
      exact pane_of_commands_wellFormed home number (commands_isLine read)
    · cases h

theorem paneList_wellFormed {home path : String} {base : Int} {position : Nat}
    {entries : List Tree} {list : List Pane}
    (h : (paneList home path base position entries).result = .ok list) :
    list.length = entries.length ∧
      ∀ (j : Nat) (p : Pane), list[j]? = some p →
        p.WellFormed home (base + (position + j : Nat)) := by
  induction entries generalizing position list with
  | nil => cases h; simp
  | cons entry rest ih =>
    simp only [paneList, Noted.result_bind_eq_ok, Noted.result_pure, Except.ok.injEq] at h
    obtain ⟨first, read, later, readLater, rfl⟩ := h
    obtain ⟨length, each⟩ := ih readLater
    refine ⟨by simp [length], fun j p found => ?_⟩
    cases j with
    | zero => cases found; exact pane_wellFormed read
    | succ j =>
      have next := each j p found
      rwa [show position + 1 + j = position + (j + 1) by omega] at next

theorem panes_wellFormed {home path : String} {base : Int} {value : Tree} {list : List Pane}
    (h : (panes home path base value).result = .ok list) :
    list ≠ [] ∧ ∀ (j : Nat) (p : Pane), list[j]? = some p → p.WellFormed home (base + j) := by
  unfold panes at h
  split at h
  · cases h
    refine ⟨by simp, fun j p found => ?_⟩
    cases j with
    | zero => cases found; simpa using pane_of_commands_wellFormed home base (by simp)
    | succ j => simp at found
  · split at h
    · cases h
    · rename_i some_entry
      obtain ⟨length, each⟩ := paneList_wellFormed h
      refine ⟨?_, by simpa using each⟩
      rintro rfl
      exact some_entry (List.length_eq_zero_iff.mp length.symm)

theorem layoutConflict?_eq_none {position : Nat} {list : List Pane}
    (h : layoutConflict? position list = none) :
    ∀ p ∈ list, p.split = none ∧ p.splitSize = none := by
  induction list generalizing position with
  | nil => simp
  | cons first rest ih =>
    rw [layoutConflict?] at h
    split at h
    · cases h
    · split at h
      · cases h
      · rename_i whole sizeless
        intro p member
        rcases List.mem_cons.mp member with rfl | member
        · exact ⟨by simpa using whole, by simpa using sizeless⟩
        · exact ih h p member

theorem checkLayout_unsplit {path : String} {w : Window} {u : Unit}
    (layout : ∀ s ∈ w.layout, s ≠ "") (h : checkLayout path w = .ok u) :
    w.layout.isSome → ∀ p ∈ w.panes, p.split = none ∧ p.splitSize = none := by
  intro present
  obtain ⟨s, found⟩ := Option.isSome_iff_exists.mp present
  have kept : w.layout.filter (!·.isEmpty) = some s := by
    simp [found, layout s found]
  rw [checkLayout, kept] at h
  cases conflict : layoutConflict? 0 w.panes with
  | none => exact layoutConflict?_eq_none conflict
  | some found => rw [conflict] at h; cases h

theorem windowOfFields_wellFormed {home path : String} {number base : Int}
    {fields : WindowField → Option Tree} {w : Window}
    (h : (windowOfFields home path number base fields).result = .ok w) :
    w.WellFormed home number base := by
  simp only [windowOfFields, Noted.result_bind_eq_ok, Noted.result_liftM, Noted.result_pure,
    Except.ok.injEq] at h
  obtain ⟨layout, -, name, nameRead, dir, dirRead, onCreate, onCreateRead, postCreate,
    postCreateRead, onPaneCreate, onPaneCreateRead, postPaneCreate, postPaneCreateRead, typed,
    typedRead, list, listRead, checked, check, rfl⟩ := h
  have layoutTrimmed : ∀ s ∈ nonempty (layout.map strip), s ≠ "" ∧ IsTrimmed s := by
    intro s member
    refine ⟨nonempty_ne_empty s member, ?_⟩
    obtain ⟨found, -⟩ := Option.filter_eq_some_iff.mp (Option.mem_def.mp member)
    obtain ⟨raw, -, rfl⟩ := Option.map_eq_some_iff.mp found
    exact isTrimmed_strip raw
  obtain ⟨ne_nil, each⟩ := panes_wellFormed listRead
  exact {
    index := rfl
    name := targetName_isTargetName nameRead
    workingDir := optionalDirectory_resolved dirRead
    layout := layoutTrimmed
    lines := by
      intro c member
      simp only [Window.lines, List.mem_append] at member
      rcases member with (((member | member) | member) | member) | member
      · exact commands_isLine onCreateRead c member
      · exact commands_isLine postCreateRead c member
      · exact commands_isLine onPaneCreateRead c member
      · exact commands_isLine postPaneCreateRead c member
      · exact commands_isLine typedRead c member
    panes_ne_nil := ne_nil
    panes := each
    unsplit := checkLayout_unsplit (fun s member => (layoutTrimmed s member).1) check }

/-- A window that nothing but its panes is known of. -/
theorem window_of_panes_wellFormed {home : String} (number : Int) {base : Int} {list : List Pane}
    (ne_nil : list ≠ [])
    (each : ∀ (j : Nat) (p : Pane), list[j]? = some p → p.WellFormed home (base + j)) :
    Window.WellFormed home number base { index := number, panes := list } where
  index := rfl
  name := by simp
  workingDir := by simp
  layout := by simp
  lines := by simp [Window.lines]
  panes_ne_nil := ne_nil
  panes := each
  unsplit := by simp

theorem default_panes_wellFormed (home : String) (base : Int) :
    ∀ (j : Nat) (p : Pane), [({ index := base } : Pane)][j]? = some p →
      p.WellFormed home (base + j) :=
  have built : (panes home "" base .null).result = .ok [{ index := base }] := rfl
  (panes_wellFormed built).2

theorem window_wellFormed {home path : String} {number base : Int} {entry : Tree} {w : Window}
    (h : (window home path number base entry).result = .ok w) : w.WellFormed home number base := by
  unfold window at h
  split at h
  · cases h
    exact window_of_panes_wellFormed number (by simp) (default_panes_wellFormed home base)
  · simp only [Noted.result_bind_eq_ok, Noted.result_liftM] at h
    obtain ⟨pairs, -, fields, -, read⟩ := h
    exact windowOfFields_wellFormed read
  · simp only [Noted.result_bind_eq_ok, Noted.result_pure, Except.ok.injEq] at h
    obtain ⟨list, read, rfl⟩ := h
    exact window_of_panes_wellFormed number (panes_wellFormed read).1 (panes_wellFormed read).2
  · split at h
    · simp only [Noted.result_bind_eq_ok, Noted.result_pure, Except.ok.injEq] at h
      obtain ⟨list, read, rfl⟩ := h
      exact window_of_panes_wellFormed number (panes_wellFormed read).1 (panes_wellFormed read).2
    · cases h

theorem windowList_wellFormed {home : String} {windowBase paneBase : Int} {position : Nat}
    {entries : List Tree} {list : List Window}
    (h : (windowList home windowBase paneBase position entries).result = .ok list) :
    list.length = entries.length ∧ ∀ (i : Nat) (w : Window), list[i]? = some w →
      w.WellFormed home (windowBase + (position + i : Nat)) paneBase := by
  induction entries generalizing position list with
  | nil => cases h; simp
  | cons entry rest ih =>
    simp only [windowList, Noted.result_bind_eq_ok, Noted.result_pure, Except.ok.injEq] at h
    obtain ⟨first, read, later, readLater, rfl⟩ := h
    obtain ⟨length, each⟩ := ih readLater
    refine ⟨by simp [length], fun i w found => ?_⟩
    cases i with
    | zero => cases found; exact window_wellFormed read
    | succ i =>
      have next := each i w found
      rwa [show position + 1 + i = position + (i + 1) by omega] at next

theorem windows_wellFormed {home : String} {windowBase paneBase : Int} {value : Tree}
    {list : List Window} (h : (windows home windowBase paneBase value).result = .ok list) :
    list ≠ [] ∧ ∀ (i : Nat) (w : Window), list[i]? = some w →
      w.WellFormed home (windowBase + i) paneBase := by
  unfold windows at h
  split at h
  · cases h
    refine ⟨by simp, fun i w found => ?_⟩
    cases i with
    | zero =>
      cases found
      simpa using window_of_panes_wellFormed windowBase (by simp)
        (default_panes_wellFormed home paneBase)
    | succ i => simp at found
  · split at h
    · cases h
    · rename_i some_entry
      obtain ⟨length, each⟩ := windowList_wellFormed h
      refine ⟨?_, by simpa using each⟩
      rintro rfl
      exact some_entry (List.length_eq_zero_iff.mp length.symm)

theorem sessionName_isTargetName {fields : ProjectField → Option Tree} {given name : Option String}
    (h : sessionName fields given = .ok name) : ∀ s ∈ name, IsTargetName s := by
  obtain ⟨declared, read, h⟩ := bind_eq_ok.mp h
  split at h
  · cases h
    exact targetName_isTargetName read
  · split at h
    · cases h; simp
    · exact targetName_isTargetName h

/-- A base index that is not given is 1. -/
theorem base_nonneg {path : String} {value : Tree} {n : Option Int} (h : count path value = .ok n) :
    0 ≤ n.getD 1 := by
  cases n with
  | none => decide
  | some k => exact count_nonneg h k rfl

theorem checkStartup_ok {p : Project} {u : Unit} (h : checkStartup p = .ok u) :
    ∃ w, p.window? p.startupWindow = some w ∧
      ∀ n ∈ p.startupPane, p.paneBaseIndex ≤ n ∧ n < p.paneBaseIndex + w.panes.length := by
  unfold checkStartup at h
  split at h
  · exact absurd h (reject_ne_ok _ _ _)
  · rename_i w found
    refine ⟨w, found, fun n member => ?_⟩
    rw [Option.mem_def.mp member] at h
    dsimp only at h
    split at h
    · rename_i inside
      simp only [Bool.and_eq_true, decide_eq_true_eq] at inside
      omega
    · exact absurd h (reject_ne_ok _ _ _)

theorem projectOfFields_wellFormed {home : String} {wishes : Wishes}
    {fields : ProjectField → Option Tree} {p : Project}
    (h : (projectOfFields home wishes fields).result = .ok p) : p.WellFormed home := by
  simp only [projectOfFields, Noted.result_bind_eq_ok, Noted.result_liftM, Noted.result_pure,
    Except.ok.injEq] at h
  obtain ⟨windowBase, windowBaseRead, paneBase, paneBaseRead, name, nameRead, command, -, options,
    -, socket, -, dir, dirRead, startup, startupRead, pane, paneRead, onStart, onStartRead,
    onFirstStart, onFirstStartRead, onRestart, onRestartRead, onExit, onExitRead, onStop,
    onStopRead, postCreate, postCreateRead, onPaneCreate, onPaneCreateRead, postPaneCreate,
    postPaneCreateRead, typed, typedRead, attach, -, list, listRead, checked, check, rfl⟩ := h
  obtain ⟨ne_nil, each⟩ := windows_wellFormed listRead
  exact {
    sessionName := sessionName_isTargetName nameRead
    workingDir := optionalDirectory_resolved dirRead
    windowBase := base_nonneg windowBaseRead
    paneBase := base_nonneg paneBaseRead
    lines := by
      intro c member
      simp only [Project.lines, List.mem_append] at member
      rcases member with ((((((((member | member) | member) | member) | member) | member) | member)
        | member) | member)
      · exact commands_isLine onStartRead c member
      · exact commands_isLine onFirstStartRead c member
      · exact commands_isLine onRestartRead c member
      · exact commands_isLine onExitRead c member
      · exact commands_isLine onStopRead c member
      · exact commands_isLine postCreateRead c member
      · exact commands_isLine onPaneCreateRead c member
      · exact commands_isLine postPaneCreateRead c member
      · exact commands_isLine typedRead c member
    windows_ne_nil := ne_nil
    windows := each
    selector := by rintro s rfl; exact selector_name startupRead
    startupPane := count_nonneg paneRead
    startup := checkStartup_ok check }

/-- However a document is written, the project that is built from it is well formed. -/
theorem build_wellFormed {home : String} {wishes : Wishes} {document : Tree} {p : Project}
    (h : (build home wishes document).result = .ok p) : p.WellFormed home := by
  unfold build at h
  split at h
  · cases h
  · simp only [Noted.result_bind_eq_ok] at h
    obtain ⟨fields, -, h⟩ := h
    split at h
    · simp only [Noted.result_bind_eq_ok] at h
      obtain ⟨u, read, -⟩ := h
      cases read
    · exact projectOfFields_wellFormed h
  · cases h

end Document
end SessionPlan
