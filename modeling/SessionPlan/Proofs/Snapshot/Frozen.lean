import SessionPlan.Proofs.Document.WellFormed
import SessionPlan.Proofs.Plan.LiveOrder
import SessionPlan.Snapshot.Freeze

/-! The project of a live session. It is as well formed as one that was built from a document, so
that it can be written and planned like any other. -/
namespace SessionPlan
open SessionPlan.Text

/-- A session as a multiplexer tells of it: its name can stand in a target, its first numbers are
not negative, layouts say something, and directories are given by absolute paths. -/
structure Snapshot.IsLive (s : Snapshot) : Prop where
  name : Document.IsTargetName s.sessionName
  windows_ne_nil : s.windows ≠ []
  panes_ne_nil : ∀ w ∈ s.windows, w.panes ≠ []
  windowBase : 0 ≤ s.windowBase
  paneBase : 0 ≤ s.paneBase
  layout : ∀ w ∈ s.windows, ∀ l ∈ w.layout, l ≠ "" ∧ IsTrimmed l
  paths : ∀ w ∈ s.windows, ∀ p ∈ w.panes, ∀ d ∈ p.workingDir, d = "" ∨ Path.IsAbsolute d

namespace Snapshot

theorem freezePanes_eq (shells : List String) (dir : Option String) (base : Int) (n : Nat)
    (list : List LivePane) :
    freezePanes shells dir (base + n) list =
      (list.zipIdx n).map fun (p, j) => freezePane shells dir (base + j) p := by
  induction list generalizing n with
  | nil => rfl
  | cons p rest ih =>
    have next : base + n + 1 = base + (n + 1 : Nat) := by omega
    rw [freezePanes, next, ih, List.zipIdx_cons, List.map_cons]

theorem freezeWindows_eq (shells : List String) (dir : Option String) (base paneBase : Int)
    (n : Nat) (list : List LiveWindow) :
    freezeWindows shells dir (base + n) paneBase list =
      (list.zipIdx n).map fun (w, i) => freezeWindow shells dir (base + i) paneBase w := by
  induction list generalizing n with
  | nil => rfl
  | cons w rest ih =>
    have next : base + n + 1 = base + (n + 1 : Nat) := by omega
    rw [freezeWindows, next, ih, List.zipIdx_cons, List.map_cons]

theorem panes_freezeWindow (shells : List String) (dir : Option String) (index base : Int)
    (w : LiveWindow) :
    (freezeWindow shells dir index base w).panes =
      w.panes.zipIdx.map fun (p, j) =>
        freezePane shells (w.directory.or dir) (base + j) p := by
  have whole := freezePanes_eq shells (w.directory.or dir) base 0 w.panes
  rwa [Int.natCast_zero, Int.add_zero] at whole

/-- Window `i` of the project. -/
def frozenWindow (s : Snapshot) (shells : List String) (i : Nat) (w : LiveWindow) : Window :=
  freezeWindow shells s.firstWindow.directory (s.windowBase + i) s.paneBase w

theorem windows_project (s : Snapshot) (shells : List String) :
    (s.project shells).windows = s.windows.zipIdx.map fun (w, i) => s.frozenWindow shells i w := by
  have whole := freezeWindows_eq shells s.firstWindow.directory s.windowBase s.paneBase 0 s.windows
  rwa [Int.natCast_zero, Int.add_zero] at whole

theorem panes_frozenWindow (s : Snapshot) (shells : List String) (i : Nat) (w : LiveWindow) :
    (s.frozenWindow shells i w).panes = w.panes.zipIdx.map fun (p, j) =>
      freezePane shells (w.directory.or s.firstWindow.directory) (s.paneBase + j) p :=
  panes_freezeWindow shells s.firstWindow.directory (s.windowBase + i) s.paneBase w

theorem mem_panes_freezeWindow {shells : List String} {dir : Option String} {index base : Int}
    {w : LiveWindow} {pane : Pane} (h : pane ∈ (freezeWindow shells dir index base w).panes) :
    ∃ p ∈ w.panes, ∃ number, pane = freezePane shells (w.directory.or dir) number p := by
  rw [panes_freezeWindow] at h
  obtain ⟨⟨p, j⟩, member, rfl⟩ := List.mem_map.mp h
  exact ⟨p, List.fst_mem_of_mem_zipIdx member, base + j, rfl⟩

theorem recorded_resolved {home : String} {own inherited : Option String}
    (h : ∀ d ∈ own, Path.Resolved home d) : ∀ d ∈ recorded own inherited, Path.Resolved home d := by
  unfold recorded
  split
  · simp
  · exact h

theorem typed_isLine (shells : List String) (p : LivePane) :
    ∀ c ∈ p.typed shells, Document.IsLine c := by
  unfold LivePane.typed
  split
  · simp
  · split
    · simp
    · simpa using Document.isLine_commandLine _

theorem freezePane_wellFormed {home : String} (shells : List String) (dir : Option String)
    (number : Int) {p : LivePane} (paths : ∀ d ∈ p.workingDir, d = "" ∨ Path.IsAbsolute d) :
    (freezePane shells dir number p).WellFormed home number where
  index := rfl
  name := by simp [freezePane]
  workingDir := recorded_resolved (Path.resolved_normal paths)
  splitFrom := by simp [freezePane]
  splitSize := by simp [freezePane]
  lines := by simpa [freezePane, Pane.lines] using typed_isLine shells p

theorem usableName_isTargetName (w : LiveWindow) :
    ∀ n ∈ w.usableName, Document.IsTargetName n := by
  intro n member
  unfold LiveWindow.usableName at member
  split at member
  · cases member
  · rename_i allowed
    obtain ⟨named, nonempty⟩ := Option.filter_eq_some_iff.mp member
    have clean : Document.holdsSeparator n = false := by
      simpa [LiveWindow.hasForbiddenName, named] using allowed
    obtain ⟨dot, colon⟩ := Document.holdsSeparator_eq_false.mp clean
    exact ⟨by simpa using nonempty, dot, colon⟩

theorem directory_resolved {home : String} {w : LiveWindow}
    (paths : ∀ p ∈ w.panes, ∀ d ∈ p.workingDir, d = "" ∨ Path.IsAbsolute d) :
    ∀ d ∈ w.directory, Path.Resolved home d := by
  intro d member
  obtain ⟨p, first, normal⟩ := Option.bind_eq_some_iff.mp member
  exact Path.resolved_normal (paths p (List.mem_of_head? first)) d normal

theorem freezeWindow_wellFormed {home : String} (shells : List String) (dir : Option String)
    (number base : Int) {w : LiveWindow} (ne_nil : w.panes ≠ [])
    (layout : ∀ l ∈ w.layout, l ≠ "" ∧ IsTrimmed l)
    (paths : ∀ p ∈ w.panes, ∀ d ∈ p.workingDir, d = "" ∨ Path.IsAbsolute d) :
    (freezeWindow shells dir number base w).WellFormed home number base where
  index := rfl
  name := usableName_isTargetName w
  workingDir := recorded_resolved (directory_resolved paths)
  layout := layout
  lines := by simp [freezeWindow, Window.lines]
  panes_ne_nil := by rw [panes_freezeWindow]; simpa using ne_nil
  panes := by
    intro j pane declared
    rw [panes_freezeWindow, List.getElem?_map, List.getElem?_zipIdx, Option.map_map] at declared
    obtain ⟨p, found, rfl⟩ := Option.map_eq_some_iff.mp declared
    simp only [Function.comp, Nat.zero_add]
    exact freezePane_wellFormed shells _ _ (paths p (List.mem_of_getElem? found))
  unsplit := by
    intro _ pane declared
    obtain ⟨p, -, number, rfl⟩ := mem_panes_freezeWindow declared
    exact ⟨rfl, rfl⟩

theorem firstWindow_mem {s : Snapshot} (h : s.windows ≠ []) : s.firstWindow ∈ s.windows := by
  obtain ⟨w, rest, windows⟩ := List.exists_cons_of_ne_nil h
  simp [firstWindow, windows]

theorem project_wellFormed {home : String} {s : Snapshot} (live : s.IsLive)
    (shells : List String) : (s.project shells).WellFormed home where
  sessionName := by rintro _ ⟨⟩; exact live.name
  workingDir := directory_resolved (live.paths _ (firstWindow_mem live.windows_ne_nil))
  windowBase := live.windowBase
  paneBase := live.paneBase
  lines := by simp [project, Project.lines]
  windows_ne_nil := by rw [windows_project]; simpa using live.windows_ne_nil
  windows := by
    intro i w declared
    rw [windows_project, List.getElem?_map, List.getElem?_zipIdx, Option.map_map] at declared
    obtain ⟨v, found, rfl⟩ := Option.map_eq_some_iff.mp declared
    have member := List.mem_of_getElem? found
    simp only [Function.comp, Nat.zero_add]
    exact freezeWindow_wellFormed shells _ _ _ (live.panes_ne_nil v member) (live.layout v member)
      (live.paths v member)
  selector := by simp [project]
  startupPane := by simp [project]
  startup := by
    have some_window : (s.project shells).windows ≠ [] := by
      rw [windows_project]; simpa using live.windows_ne_nil
    obtain ⟨w, rest, windows⟩ := List.exists_cons_of_ne_nil some_window
    exact ⟨w, by simp [Project.window?, project] at windows ⊢; simp [windows], by simp [project]⟩

theorem checkPanes_eq_ok {position : Nat} {list : List LiveWindow} :
    checkPanes position list = .ok () ↔ ∀ w ∈ list, w.panes ≠ [] := by
  induction list generalizing position with
  | nil => simp [checkPanes]
  | cons w rest ih =>
    cases empty : w.panes.isEmpty with
    | true => simp [checkPanes, List.isEmpty_iff.mp empty]
    | false =>
      have some_pane : w.panes ≠ [] := by simpa using empty
      rw [checkPanes, empty, if_neg (by decide), ih, List.forall_mem_cons]
      exact (and_iff_right some_pane).symm

/-- A session is frozen if it has a window and each of its windows has a pane. -/
theorem freeze_eq_ok_iff {s : Snapshot} {shells : List String} {p : Project} :
    s.freeze shells = .ok p ↔
      (s.windows ≠ [] ∧ ∀ w ∈ s.windows, w.panes ≠ []) ∧ s.project shells = p := by
  have checked : s.check = .ok () ↔ s.windows ≠ [] ∧ ∀ w ∈ s.windows, w.panes ≠ [] := by
    cases empty : s.windows.isEmpty with
    | true => simp [check, List.isEmpty_iff.mp empty]
    | false =>
      have some_window : s.windows ≠ [] := by simpa using empty
      rw [check, empty, if_neg (by decide), checkPanes_eq_ok]
      exact (and_iff_right some_window).symm
  rw [← checked, freeze, bind_eq_ok]
  constructor
  · rintro ⟨_, done, same⟩
    exact ⟨done, pure_eq_ok.mp same⟩
  · rintro ⟨done, same⟩
    exact ⟨(), done, pure_eq_ok.mpr same⟩

theorem freeze_eq_ok {s : Snapshot} (live : s.IsLive) (shells : List String) :
    s.freeze shells = .ok (s.project shells) :=
  freeze_eq_ok_iff.mpr ⟨⟨live.windows_ne_nil, live.panes_ne_nil⟩, rfl⟩

/-- No pane of the project names its source, or a size. -/
theorem mem_project_panes {s : Snapshot} {shells : List String} {w : Window}
    (member : w ∈ (s.project shells).windows) :
    ∀ pane ∈ w.panes, pane.splitFrom = none ∧ pane.splitSize = none := by
  rw [windows_project] at member
  obtain ⟨⟨v, i⟩, -, rfl⟩ := List.mem_map.mp member
  intro pane declared
  obtain ⟨p, -, number, rfl⟩ := mem_panes_freezeWindow declared
  exact ⟨rfl, rfl⟩

end Snapshot
end SessionPlan
