import SessionPlan.Proofs.Snapshot.Frozen

/-! Where the panes of a frozen session are opened. What a window or a pane does not record it
inherits, and only that is recorded which would not be inherited: so every pane is opened where it
is, and no directory is recorded twice. -/
namespace SessionPlan

/-- The normal form of a path says something. -/
theorem Path.normal_ne_empty {path : Option String} : ∀ d ∈ normal path, d ≠ "" := by
  intro d normalized
  unfold normal at normalized
  cases path with
  | none => cases normalized
  | some s =>
    dsimp only at normalized
    split at normalized
    · cases normalized
    · cases normalized
      dsimp only [collapsed]
      split
      · decide
      · rename_i something
        simpa using something

/-- The alternative counts where nothing is said. -/
theorem orNonempty_eq_or {own inherited : Option String} (said : ∀ d ∈ own, d ≠ "") :
    orNonempty own inherited = own.or inherited := by
  cases own with
  | none => rfl
  | some d => simp [orNonempty, said d rfl]

theorem LiveWindow.directory_ne_empty (w : LiveWindow) : ∀ d ∈ w.directory, d ≠ "" := by
  intro d found
  obtain ⟨first, -, normalized⟩ := Option.bind_eq_some_iff.mp found
  exact Path.normal_ne_empty d normalized

namespace Snapshot
variable {s : Snapshot} {shells : List String} {own inherited : Option String}

/-! ### What is recorded -/

/-- What is recorded is there, and it is not what would be inherited. -/
theorem recorded_eq_some {d : String} :
    recorded own inherited = some d ↔ own = some d ∧ inherited ≠ some d := by
  unfold recorded
  split
  · rename_i same
    subst same
    simp
  · rename_i other
    constructor
    · rintro rfl
      exact ⟨rfl, Ne.symm other⟩
    · exact And.left

/-- Below the inherited directory, what is recorded is read as what was to be recorded. -/
theorem orNonempty_recorded (said : ∀ d ∈ own, d ≠ "") :
    orNonempty (recorded own inherited) inherited = own.or inherited := by
  rw [orNonempty_eq_or fun d found => said d (recorded_eq_some.mp found).1]
  unfold recorded
  split
  · rename_i same
    rw [same, Option.none_or, Option.or_self]
  · rfl

/-! ### Windows and panes -/

/-- What the panes of a frozen window inherit is what they were frozen against, although the one is
found level by level and the other was worked out at once. -/
theorem windowDir_frozenWindow (i : Nat) (w : LiveWindow) :
    (s.project shells).windowDir (s.frozenWindow shells i w) =
      w.directory.or s.firstWindow.directory :=
  orNonempty_recorded w.directory_ne_empty

theorem resolve_freezePane (i : Nat) (w : LiveWindow) (number : Int) (pane : LivePane) :
    ((s.project shells).resolve (s.frozenWindow shells i w)
        (freezePane shells (w.directory.or s.firstWindow.directory) number pane)).workingDir =
      pane.directory.or (w.directory.or s.firstWindow.directory) := by
  change orNonempty _ ((s.project shells).windowDir (s.frozenWindow shells i w)) = _
  rw [windowDir_frozenWindow]
  exact orNonempty_recorded Path.normal_ne_empty

/-- Where a pane is, as far as the session tells: in a directory of its own, else in that of the
first pane of its window, else in that of the first pane of all. -/
def paneDirectory (s : Snapshot) (w : LiveWindow) (pane : LivePane) : Option String :=
  pane.directory.or (w.directory.or s.firstWindow.directory)

/-- Every pane of a frozen session is opened in the directory where it is. The project records that
of the first pane of all; a window records the directory of its first pane, and a pane its own, if
there is one and it differs from the one that is inherited. -/
theorem freeze_directories {p : Project} (frozen : s.freeze shells = .ok p) :
    p.workingDir = s.firstWindow.directory ∧ p.windows.length = s.windows.length ∧
    ∀ (i : Nat) (w : LiveWindow) (made : Window), s.windows[i]? = some w →
      p.windows[i]? = some made → made.panes.length = w.panes.length ∧
      (∀ d, made.workingDir = some d ↔ w.directory = some d ∧ p.workingDir ≠ some d) ∧
      ∀ (j : Nat) (pane : LivePane) (madePane : Pane), w.panes[j]? = some pane →
        made.panes[j]? = some madePane →
        (p.resolve made madePane).workingDir = s.paneDirectory w pane ∧
        ∀ d, madePane.workingDir = some d ↔
          pane.directory = some d ∧ p.windowDir made ≠ some d := by
  obtain ⟨-, rfl⟩ := freeze_eq_ok_iff.mp frozen
  refine ⟨rfl, by simp [windows_project], ?_⟩
  intro i w made window found
  rw [windows_project, List.getElem?_map, List.getElem?_zipIdx, window] at found
  obtain rfl : s.frozenWindow shells i w = made := by simpa using found
  refine ⟨by simp [panes_frozenWindow], fun d => recorded_eq_some, ?_⟩
  intro j pane madePane declared there
  rw [panes_frozenWindow, List.getElem?_map, List.getElem?_zipIdx, declared] at there
  obtain rfl : freezePane shells (w.directory.or s.firstWindow.directory) (s.paneBase + j) pane =
      madePane := by simpa using there
  refine ⟨resolve_freezePane i w _ pane, fun d => ?_⟩
  rw [windowDir_frozenWindow]
  exact recorded_eq_some

/-- Three windows: the first pane of the second is nowhere, and one of the third is where the
project is, though its window is not. -/
def scatteredSession : Snapshot where
  sessionName := "dev"
  windows := [
    { index := 0, panes := [{ index := 0, workingDir := some "/srv/shop/" }, { index := 1 }] },
    { index := 1, panes := [{ index := 0, workingDir := some "." },
      { index := 1, workingDir := some "/srv//shop" }, { index := 2, workingDir := some "/" }] },
    { index := 2, panes := [{ index := 0, workingDir := some "/srv/shop/api" },
      { index := 1, workingDir := some "/srv/shop/api/.." }, { index := 2 }] }]

def scatteredProject : Project where
  sessionName := some "dev"
  workingDir := some "/srv/shop"
  windowBaseIndex := 0
  paneBaseIndex := 0
  windows := [{ index := 0, panes := [{ index := 0 }, { index := 1 }] },
    { index := 1, panes := [{ index := 0 }, { index := 1 }, { index := 2, workingDir := some "/" }] },
    { index := 2, workingDir := some "/srv/shop/api"
      panes := [{ index := 0 }, { index := 1, workingDir := some "/srv/shop" }, { index := 2 }] }]

theorem freeze_directories_scattered :
    scatteredSession.freeze [] = .ok scatteredProject ∧
    scatteredProject.workingDir = scatteredSession.firstWindow.directory ∧
    scatteredProject.windows.length = scatteredSession.windows.length ∧
    ∀ (i : Nat) (w : LiveWindow) (made : Window), scatteredSession.windows[i]? = some w →
      scatteredProject.windows[i]? = some made → made.panes.length = w.panes.length ∧
      (∀ d, made.workingDir = some d ↔
        w.directory = some d ∧ scatteredProject.workingDir ≠ some d) ∧
      ∀ (j : Nat) (pane : LivePane) (madePane : Pane), w.panes[j]? = some pane →
        made.panes[j]? = some madePane →
        (scatteredProject.resolve made madePane).workingDir =
          scatteredSession.paneDirectory w pane ∧
        ∀ d, madePane.workingDir = some d ↔
          pane.directory = some d ∧ scatteredProject.windowDir made ≠ some d := by
  have frozen : scatteredSession.freeze [] = .ok scatteredProject :=
    eq_ok_of_toOption (by decide +kernel)
  exact ⟨frozen, freeze_directories frozen⟩

end Snapshot
end SessionPlan
