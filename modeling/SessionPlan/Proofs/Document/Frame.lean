import SessionPlan.Proofs.Noted
import SessionPlan.Document.Build

/-! Windows and projects but for what they contain. Their other fields are read first, without
notes; then their panes or windows, one after the other; and last the whole is checked. -/
namespace SessionPlan.Document

variable {home path : String} {index base : Int}

theorem eq_nil_of_entryList {value : Tree} (none : entryList value = []) : value = .list [] := by
  cases value with
  | list items => rw [show items = [] from none]
  | _ => cases none

/-! ### Windows -/

/-- A window from its fields, without its panes. -/
def windowFrame (home path : String) (index : Int) (fields : WindowField → Option Tree) :
    Except Failure Window := do
  let value := orNull fields
  let layout ← optionalText (fieldPath path "layout") (value .layout)
  return {
    index
    name := ← targetName .window (fieldPath path "name") (value .name)
    workingDir :=
      ← optionalDirectory home (fieldPath path "working_dir") (fields .workingDir)
    layout := nonempty (layout.map Text.strip)
    onCreate := ← commands (fieldPath path "on_create") (value .onCreate)
    postCreate := ← commands (fieldPath path "post_create") (value .postCreate)
    onPaneCreate := ← commands (fieldPath path "on_pane_create") (value .onPaneCreate)
    postPaneCreate := ← commands (fieldPath path "post_pane_create") (value .postPaneCreate)
    paneCommands := ← commands (fieldPath path "pane_commands") (value .paneCommands)
    panes := [] }

/-- The window with its panes, if they go with its layout. -/
def windowWith (path : String) (frame : Window) (list : List Pane) : Except Failure Window := do
  checkLayout path { frame with panes := list }
  return { frame with panes := list }

theorem windowOfFields_eq (fields : WindowField → Option Tree) :
    windowOfFields home path index base fields =
      liftM (windowFrame home path index fields) >>= fun frame =>
        panes home (fieldPath path "panes") base (orNull fields .panes) >>= fun list =>
          liftM (windowWith path frame list) := by
  simp only [windowOfFields, windowFrame, windowWith, liftM_bind, liftM_pure, bind_assoc, pure_bind]

/-- The panes have no part in the frame. -/
theorem windowFrame_congr {fields fields' : WindowField → Option Tree}
    (same : ∀ f, f ≠ .panes → fields f = fields' f) :
    windowFrame home path index fields = windowFrame home path index fields' := by
  simp (disch := decide) only [windowFrame, orNull, same]

theorem paneList_eq_mapM (position : Nat) (entries : List Tree) :
    paneList home path base position entries =
      (entries.zipIdx position).mapM fun e => pane home (itemPath path e.2) (base + e.2) e.1 := by
  induction entries generalizing position with
  | nil => rfl
  | cons entry rest ih => rw [paneList, List.zipIdx_cons, List.mapM_cons, ih]

/-- No value stands for the list of null. -/
theorem panes_eq_mapM {value : Tree} (some : entryList value ≠ []) :
    panes home path base value =
      (entryList value).zipIdx.mapM fun e => pane home (itemPath path e.2) (base + e.2) e.1 := by
  rw [← paneList_eq_mapM]
  cases value with
  | null =>
    have first : base + ((0 : Nat) : Int) = base := Int.add_zero base
    rw [entryList, paneList, paneList, pane, first]
    · rfl
    · exact nofun
  | list items =>
    cases items with
    | nil => exact absurd rfl some
    | cons entry rest => rfl
  | _ => rfl

/-- Panes are built if there is one at all and each is built at its place. -/
theorem panes_eq_ok {value : Tree} {list : List Pane} :
    (panes home path base value).result = .ok list ↔ entryList value ≠ [] ∧
      List.Forall₂ (fun e p => (pane home (itemPath path e.2) (base + e.2) e.1).result = .ok p)
        (entryList value).zipIdx list := by
  by_cases none : entryList value = []
  · obtain rfl := eq_nil_of_entryList none
    exact ⟨nofun, fun built => absurd rfl built.1⟩
  · rw [panes_eq_mapM none, Noted.mapM_result_eq_ok]
    exact ⟨fun each => ⟨none, each⟩, And.right⟩

theorem panes_notes {value : Tree} {list : List Pane}
    (built : (panes home path base value).result = .ok list) :
    (panes home path base value).notes = (entryList value).zipIdx.flatMap fun e =>
      (pane home (itemPath path e.2) (base + e.2) e.1).notes := by
  have some := (panes_eq_ok.mp built).1
  rw [panes_eq_mapM some] at built ⊢
  exact Noted.mapM_notes built

theorem windowOfFields_of_frame {fields : WindowField → Option Tree} {frame : Window}
    (framed : windowFrame home path index fields = .ok frame) :
    windowOfFields home path index base fields =
      panes home (fieldPath path "panes") base (orNull fields .panes) >>= fun list =>
        liftM (windowWith path frame list) := by
  rw [windowOfFields_eq, framed, Noted.liftM_ok, pure_bind]

/-- A window is built of its frame and its panes. -/
theorem windowOfFields_eq_ok {fields : WindowField → Option Tree} {w : Window} :
    (windowOfFields home path index base fields).result = .ok w ↔
      ∃ frame list, windowFrame home path index fields = .ok frame ∧
        (panes home (fieldPath path "panes") base (orNull fields .panes)).result = .ok list ∧
        windowWith path frame list = .ok w := by
  simp only [windowOfFields_eq, Noted.result_bind_eq_ok, Noted.result_liftM]
  exact ⟨fun ⟨frame, framed, list, built, done⟩ => ⟨frame, list, framed, built, done⟩,
    fun ⟨frame, list, framed, built, done⟩ => ⟨frame, framed, list, built, done⟩⟩

theorem windowWith_eq_ok {frame w : Window} {list : List Pane}
    (done : windowWith path frame list = .ok w) : w = { frame with panes := list } := by
  obtain ⟨-, -, done⟩ := bind_eq_ok.mp done
  exact (pure_eq_ok.mp done).symm

/-! ### Projects -/

/-- A project from its fields, without its windows. -/
def projectFrame (home : String) (wishes : Wishes) (fields : ProjectField → Option Tree) :
    Except Failure Project := do
  let value := orNull fields
  let windowBaseIndex := (← count "window_base_index" (value .windowBaseIndex)).getD 1
  let paneBaseIndex := (← count "pane_base_index" (value .paneBaseIndex)).getD 1
  return {
    sessionName := ← sessionName fields wishes.name
    tmuxCommand := ← optionalText "tmux_command" (value .tmuxCommand)
    tmuxOptions := ← optionalText "tmux_options" (value .tmuxOptions)
    tmuxSocket := ← optionalText "tmux_socket" (value .tmuxSocket)
    workingDir := ← optionalDirectory home "working_dir" (fields .workingDir)
    windowBaseIndex
    paneBaseIndex
    startupWindow := ← selector "startup_window" (value .startupWindow)
    startupPane := ← count "startup_pane" (value .startupPane)
    onStart := ← commands "on_start" (value .onStart)
    onFirstStart := ← commands "on_first_start" (value .onFirstStart)
    onRestart := ← commands "on_restart" (value .onRestart)
    onExit := ← commands "on_exit" (value .onExit)
    onStop := ← commands "on_stop" (value .onStop)
    postCreate := ← commands "post_create" (value .postCreate)
    onPaneCreate := ← commands "on_pane_create" (value .onPaneCreate)
    postPaneCreate := ← commands "post_pane_create" (value .postPaneCreate)
    paneCommands := ← commands "pane_commands" (value .paneCommands)
    attach := ← attachment fields wishes.attach
    windows := [] }

/-- The project with its windows, if it can start in them. -/
def projectWith (frame : Project) (list : List Window) : Except Failure Project := do
  checkStartup { frame with windows := list }
  return { frame with windows := list }

theorem projectOfFields_eq (wishes : Wishes) (fields : ProjectField → Option Tree) :
    projectOfFields home wishes fields =
      liftM (projectFrame home wishes fields) >>= fun frame =>
        windows home frame.windowBaseIndex frame.paneBaseIndex (orNull fields .windows) >>=
          fun list => liftM (projectWith frame list) := by
  simp only [projectOfFields, projectFrame, projectWith, liftM_bind, liftM_pure, bind_assoc,
    pure_bind]

/-- The windows have no part in the frame. -/
theorem projectFrame_congr {wishes : Wishes} {fields fields' : ProjectField → Option Tree}
    (same : ∀ f, f ≠ .windows → fields f = fields' f) :
    projectFrame home wishes fields = projectFrame home wishes fields' := by
  simp (disch := decide) only [projectFrame, sessionName, attachment, orNull, same]

theorem windowList_eq_mapM (windowBase paneBase : Int) (position : Nat) (entries : List Tree) :
    windowList home windowBase paneBase position entries =
      (entries.zipIdx position).mapM fun e =>
        window home (itemPath "windows" e.2) (windowBase + e.2) paneBase e.1 := by
  induction entries generalizing position with
  | nil => rfl
  | cons entry rest ih => rw [windowList, List.zipIdx_cons, List.mapM_cons, ih]

theorem windows_eq_mapM {windowBase paneBase : Int} {value : Tree} (some : entryList value ≠ []) :
    windows home windowBase paneBase value =
      (entryList value).zipIdx.mapM fun e =>
        window home (itemPath "windows" e.2) (windowBase + e.2) paneBase e.1 := by
  rw [← windowList_eq_mapM]
  cases value with
  | null =>
    have first : windowBase + ((0 : Nat) : Int) = windowBase := Int.add_zero windowBase
    rw [entryList, windowList, windowList, window, first]
    · rfl
    · exact nofun
  | list items =>
    cases items with
    | nil => exact absurd rfl some
    | cons entry rest => rfl
  | _ => rfl

theorem windows_eq_ok {windowBase paneBase : Int} {value : Tree} {list : List Window} :
    (windows home windowBase paneBase value).result = .ok list ↔ entryList value ≠ [] ∧
      List.Forall₂ (fun e w =>
          (window home (itemPath "windows" e.2) (windowBase + e.2) paneBase e.1).result = .ok w)
        (entryList value).zipIdx list := by
  by_cases none : entryList value = []
  · obtain rfl := eq_nil_of_entryList none
    exact ⟨nofun, fun built => absurd rfl built.1⟩
  · rw [windows_eq_mapM none, Noted.mapM_result_eq_ok]
    exact ⟨fun each => ⟨none, each⟩, And.right⟩

theorem windows_notes {windowBase paneBase : Int} {value : Tree} {list : List Window}
    (built : (windows home windowBase paneBase value).result = .ok list) :
    (windows home windowBase paneBase value).notes = (entryList value).zipIdx.flatMap fun e =>
      (window home (itemPath "windows" e.2) (windowBase + e.2) paneBase e.1).notes := by
  have some := (windows_eq_ok.mp built).1
  rw [windows_eq_mapM some] at built ⊢
  exact Noted.mapM_notes built

theorem projectOfFields_of_frame {wishes : Wishes} {fields : ProjectField → Option Tree}
    {frame : Project} (framed : projectFrame home wishes fields = .ok frame) :
    projectOfFields home wishes fields =
      windows home frame.windowBaseIndex frame.paneBaseIndex (orNull fields .windows) >>=
        fun list => liftM (projectWith frame list) := by
  rw [projectOfFields_eq, framed, Noted.liftM_ok, pure_bind]

theorem projectOfFields_eq_ok {wishes : Wishes} {fields : ProjectField → Option Tree}
    {p : Project} :
    (projectOfFields home wishes fields).result = .ok p ↔
      ∃ frame list, projectFrame home wishes fields = .ok frame ∧
        (windows home frame.windowBaseIndex frame.paneBaseIndex (orNull fields .windows)).result =
          .ok list ∧ projectWith frame list = .ok p := by
  simp only [projectOfFields_eq, Noted.result_bind_eq_ok, Noted.result_liftM]
  exact ⟨fun ⟨frame, framed, list, built, done⟩ => ⟨frame, list, framed, built, done⟩,
    fun ⟨frame, list, framed, built, done⟩ => ⟨frame, framed, list, built, done⟩⟩

theorem projectWith_eq_ok {frame p : Project} {list : List Window}
    (done : projectWith frame list = .ok p) : p = { frame with windows := list } := by
  obtain ⟨-, -, done⟩ := bind_eq_ok.mp done
  exact (pure_eq_ok.mp done).symm

end SessionPlan.Document
