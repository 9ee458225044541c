import SessionPlan.Proofs.Document.Written

/-! A project comes back from its own document: the tree that is written of it, with whatever
variables it is read again, gives the same project. -/
namespace SessionPlan.Document
open SessionPlan.Text

theorem windowList_written {home : String} {windowBase paneBase : Int}
    (absolute : Path.IsAbsolute home) (position : Nat) {list : List Window}
    (each : ∀ (i : Nat) (w : Window), list[i]? = some w →
      w.WellFormed home (windowBase + (position + i : Nat)) paneBase)
    (plain : ∀ w ∈ list, ∀ p ∈ w.panes, PlainSize p) :
    ∃ trees, list.mapM (windowTree home) = .ok trees ∧ trees.length = list.length ∧
      windowList home windowBase paneBase position trees = pure list := by
  induction list generalizing position with
  | nil => exact ⟨[], rfl, rfl, rfl⟩
  | cons w rest ih =>
    obtain ⟨tree, one, read⟩ :=
      window_written absolute (each 0 w rfl) (plain w List.mem_cons_self)
    have next (i : Nat) (v : Window) (found : rest[i]? = some v) :
        v.WellFormed home (windowBase + (position + 1 + i : Nat)) paneBase := by
      have formed := each (i + 1) v found
      rwa [show position + (i + 1) = position + 1 + i by omega] at formed
    obtain ⟨trees, many, length, readRest⟩ :=
      ih (position + 1) next fun v member => plain v (List.mem_cons_of_mem _ member)
    refine ⟨tree :: trees, ?_, by simp [length], ?_⟩
    · rw [List.mapM_cons, one, ok_bind, many]; rfl
    · have first := read (itemPath "windows" position)
      rw [Nat.add_zero] at first
      rw [windowList, first, Noted.pure_bind, readRest, Noted.pure_bind]

theorem windows_written {home : String} {windowBase paneBase : Int}
    (absolute : Path.IsAbsolute home) {list : List Window} (ne_nil : list ≠ [])
    (each : ∀ (i : Nat) (w : Window), list[i]? = some w →
      w.WellFormed home (windowBase + i) paneBase)
    (plain : ∀ w ∈ list, ∀ p ∈ w.panes, PlainSize p) :
    ∃ trees, list.mapM (windowTree home) = .ok trees ∧
      windows home windowBase paneBase (.list trees) = pure list := by
  obtain ⟨trees, many, length, read⟩ :=
    windowList_written absolute 0 (by simpa using each) plain
  refine ⟨trees, many, ?_⟩
  cases trees with
  | nil => exact absurd (List.length_eq_zero_iff.mp length.symm) ne_nil
  | cons first rest => exact read

/-- A base index, where it is not the default. -/
def givenBase (index : Int) : Option Int := if index = 1 then none else some index

theorem givenBase_getD (index : Int) : (givenBase index).getD 1 = index := by
  unfold givenBase
  split
  · rename_i default; exact default.symm
  · rfl

theorem givenBase_nonneg {index : Int} (h : 0 ≤ index) : ∀ n ∈ givenBase index, 0 ≤ n := by
  unfold givenBase
  split
  · simp
  · rintro _ ⟨⟩; exact h

theorem baseIndexField_eq (key : String) (index : Int) :
    baseIndexField key index = optionalField key ((givenBase index).map .int) := by
  unfold baseIndexField givenBase
  split <;> rfl

/-- The fields of a project. Whether it is attached to is said one way only. -/
def projectOrder : List ProjectField :=
  [.sessionName, .tmuxCommand, .tmuxOptions, .tmuxSocket, .workingDir, .windowBaseIndex,
    .paneBaseIndex, .startupWindow, .startupPane, .onStart, .onFirstStart, .onRestart, .onExit,
    .onStop, .postCreate, .onPaneCreate, .postPaneCreate, .paneCommands, .attach, .windows]

/-- What a project is written as, field by field; its windows are written already. -/
def projectValue (home : String) (p : Project) (windows : List Tree) : ProjectField → Option Tree
  | .sessionName => p.sessionName.map .text
  | .tmuxCommand => p.tmuxCommand.map .text
  | .tmuxOptions => p.tmuxOptions.map .text
  | .tmuxSocket => p.tmuxSocket.map .text
  | .workingDir => (p.workingDir.map (Path.contractHome home)).map .text
  | .windowBaseIndex => (givenBase p.windowBaseIndex).map .int
  | .paneBaseIndex => (givenBase p.paneBaseIndex).map .int
  | .startupWindow => p.startupWindow.map selectorTree
  | .startupPane => p.startupPane.map .int
  | .onStart => commandsTree? p.onStart
  | .onFirstStart => commandsTree? p.onFirstStart
  | .onRestart => commandsTree? p.onRestart
  | .onExit => commandsTree? p.onExit
  | .onStop => commandsTree? p.onStop
  | .postCreate => commandsTree? p.postCreate
  | .onPaneCreate => commandsTree? p.onPaneCreate
  | .postPaneCreate => commandsTree? p.postPaneCreate
  | .paneCommands => commandsTree? p.paneCommands
  | .attach => if p.attach then none else some (.flag false)
  | .detached => none
  | .windows => some (.list windows)

theorem projectFields_written (home : String) (p : Project) (trees : List Tree) :
    projectFields home p ++ [Tree.field "windows" (.list trees)] =
      written projectVocabulary projectOrder (projectValue home p trees) := by
  have attach : (if p.attach then [] else [Tree.field "attach" (.flag false)]) =
      optionalField "attach" (if p.attach then none else some (.flag false)) := by
    cases p.attach <;> rfl
  unfold projectFields
  simp only [baseIndexField_eq, attach, projectOrder, written_cons, written_nil, List.append_nil,
    List.append_assoc]
  rfl

theorem sessionName_text {value : ProjectField → Option Tree} {name : Option String}
    (h : ∀ s ∈ name, IsTargetName s) (given : value .sessionName = name.map .text) :
    sessionName value none = .ok name := by
  rw [sessionName, orNull, given, targetName_text _ _ h, ok_bind]
  cases name <;> rfl

theorem attachment_flag {value : ProjectField → Option Tree} {attach : Bool}
    (given : value .attach = if attach then none else some (.flag false))
    (unsaid : value .detached = none) : attachment value none = .ok attach := by
  rw [attachment, orNull, orNull, given, unsaid]
  cases attach <;> rfl

theorem checkStartup_of_wellFormed {home : String} {p : Project} (formed : p.WellFormed home) :
    checkStartup p = .ok () := by
  obtain ⟨w, selected, inside⟩ := formed.startup
  rw [checkStartup, selected]
  cases found : p.startupPane with
  | none => rfl
  | some n =>
    obtain ⟨low, high⟩ := inside n found
    have within : (decide (p.paneBaseIndex ≤ n) &&
        decide (n ≤ p.paneBaseIndex + w.panes.length - 1)) = true := by
      simp only [Bool.and_eq_true, decide_eq_true_eq]
      omega
    simp only [within, if_true]

theorem projectOfFields_written {home : String} {p : Project} {trees : List Tree}
    (absolute : Path.IsAbsolute home) (formed : p.WellFormed home)
    (windowsRead : windows home p.windowBaseIndex p.paneBaseIndex (.list trees) =
      pure p.windows) :
    projectOfFields home {} (projectValue home p trees) = pure p := by
  have typed {own : List String} (place : String) (part : ∀ c ∈ own, c ∈ p.lines) :
      commands place ((commandsTree? own).getD .null) = .ok own :=
    commands_commandsTree? place fun c member => formed.lines c (part c member)
  have onStart := typed "on_start" fun c (member : c ∈ p.onStart) => by
    simp [Project.lines, member]
  have onFirstStart := typed "on_first_start" fun c (member : c ∈ p.onFirstStart) => by
    simp [Project.lines, member]
  have onRestart := typed "on_restart" fun c (member : c ∈ p.onRestart) => by
    simp [Project.lines, member]
  have onExit := typed "on_exit" fun c (member : c ∈ p.onExit) => by
    simp [Project.lines, member]
  have onStop := typed "on_stop" fun c (member : c ∈ p.onStop) => by
    simp [Project.lines, member]
  have postCreate := typed "post_create" fun c (member : c ∈ p.postCreate) => by
    simp [Project.lines, member]
  have onPaneCreate := typed "on_pane_create" fun c (member : c ∈ p.onPaneCreate) => by
    simp [Project.lines, member]
  have postPaneCreate := typed "post_pane_create" fun c (member : c ∈ p.postPaneCreate) => by
    simp [Project.lines, member]
  have commands := typed "pane_commands" fun c (member : c ∈ p.paneCommands) => by
    simp [Project.lines, member]
  have name : sessionName (projectValue home p trees) none = .ok p.sessionName :=
    sessionName_text formed.sessionName rfl
  have attach : attachment (projectValue home p trees) none = .ok p.attach :=
    attachment_flag rfl rfl
  simp only [projectOfFields, name, attach]
  simp only [orNull, projectValue, count_int (givenBase_nonneg formed.windowBase),
    count_int (givenBase_nonneg formed.paneBase), givenBase_getD, optionalText_text,
    optionalDirectory_contracted _ absolute formed.workingDir,
    selector_selectorTree _ formed.selector, count_int formed.startupPane, onStart, onFirstStart,
    onRestart, onExit, onStop, postCreate, onPaneCreate, postPaneCreate, commands, Noted.liftM_ok,
    Noted.pure_bind, Option.getD_some, windowsRead, checkStartup_of_wellFormed formed]

theorem isJson_selectorTree (selected : Option Selector) :
    ∀ t ∈ selected.map selectorTree, t.IsJson :=
  isJson_map (fun s => by cases s <;> simp [selectorTree, Tree.IsJson]) selected

theorem isJson_projectValue {home : String} {p : Project} {trees : List Tree}
    (parts : Tree.AreJson trees) (f : ProjectField) :
    ∀ t ∈ projectValue home p trees f, t.IsJson := by
  cases f with
  | sessionName | tmuxCommand | tmuxOptions | tmuxSocket | workingDir => exact isJson_text _
  | windowBaseIndex | paneBaseIndex | startupPane => exact isJson_int _
  | startupWindow => exact isJson_selectorTree _
  | onStart | onFirstStart | onRestart | onExit | onStop | postCreate | onPaneCreate
  | postPaneCreate | paneCommands => exact fun _ => isJson_commandsTree?
  | attach => cases attach : p.attach <;> simp [projectValue, attach, Tree.IsJson]
  | detached => simp [projectValue]
  | windows => rintro _ ⟨⟩; exact parts

theorem outline_eq {home : String} {p : Project} {trees : List Tree}
    (h : p.windows.mapM (windowTree home) = .ok trees) :
    outline home p = .ok (Tree.mapping (written projectVocabulary projectOrder
      (projectValue home p trees))).escape := by
  rw [outline, h, ok_bind, projectFields_written]
  rfl

theorem projectMapping_isJson {home : String} {p : Project} {trees : List Tree}
    (h : p.windows.mapM (windowTree home) = .ok trees) :
    (Tree.mapping (written projectVocabulary projectOrder (projectValue home p trees))).IsJson := by
  have parts : Tree.AreJson trees := Tree.areJson_iff.mpr fun t member => by
    obtain ⟨w, -, one⟩ := mem_of_mapM_eq_ok h member
    exact windowTree_isJson one
  exact isJson_written coherent_project (by decide) (isJson_projectValue parts)

theorem build_mapping {home : String} {p : Project} {trees : List Tree}
    (read : projectOfFields home {} (projectValue home p trees) = pure p) :
    build home {} (.mapping (written projectVocabulary projectOrder (projectValue home p trees))) =
      pure p := by
  have complete (f : ProjectField) (out : f ∉ projectOrder) :
      projectValue home p trees f = none := by
    cases f <;> first
      | rfl
      | exact absurd (by decide) out
  rw [build, readFields_written coherent_project (by decide) complete, Noted.pure_bind]
  simp [contentFields, projectValue, read]

/-- A well-formed project is read back from its document. -/
theorem normalize_outline_of_wellFormed {home : String} {p : Project}
    (absolute : Path.IsAbsolute home) (formed : p.WellFormed home)
    (plain : ∀ w ∈ p.windows, ∀ pane ∈ w.panes, PlainSize pane) :
    ∃ tree, outline home p = .ok tree ∧ ∀ values, normalize home values {} tree = pure p := by
  obtain ⟨trees, many, windowsRead⟩ :=
    windows_written absolute formed.windows_ne_nil formed.windows plain
  have document := (projectMapping_isJson many).isDocument
  refine ⟨_, outline_eq many, fun values => ?_⟩
  rw [normalize, Tree.expand_escape values _ document, Noted.liftM_ok, Noted.pure_bind]
  exact build_mapping (projectOfFields_written absolute formed windowsRead)

theorem normalize_wellFormed {home : String} {values : Variables} {wishes : Wishes}
    {document : Tree} {p : Project} (h : (normalize home values wishes document).result = .ok p) :
    p.WellFormed home := by
  obtain ⟨expanded, -, built⟩ := Noted.result_bind_eq_ok.mp h
  exact build_wellFormed built

/-- Whatever document a project was built from, with whatever variables and wishes: its own
document gives it back with any other variables, and without a conflict. -/
theorem normalize_outline {home : String} {values : Variables} {wishes : Wishes} {document : Tree}
    {p : Project} (absolute : Path.IsAbsolute home)
    (built : (normalize home values wishes document).result = .ok p)
    (plain : ∀ w ∈ p.windows, ∀ pane ∈ w.panes, ∀ s ∈ pane.splitSize,
      isDigits s = true → IsDecimal s) :
    ∃ tree, outline home p = .ok tree ∧ ∀ again, normalize home again {} tree = pure p :=
  normalize_outline_of_wellFormed absolute (normalize_wellFormed built) plain

/-- A document with a dollar sign, a variable, a shorthand window and a split. -/
def editorDocument : Tree := .mapping [
  (.text "name", .text "cost$$5"), (.text "root", .text "~/$NAME"),
  (.text "windows", .list [.mapping [(.text "editor", .list [.text "vim", .mapping [
    (.text "split_size", .int 30), (.text "split_from", .int 0), (.text "clear", .flag true)]])]])]

def editorProject : Project where
  sessionName := some "cost$5"
  workingDir := some "/home/ann/code"
  windows := [{ name := some "editor", panes := [{ commands := ["vim"] },
    { index := 2, splitFrom := some 0, splitSize := some "30", clear := true }] }]

theorem normalize_outline_editor :
    ∃ tree, outline "/home/ann" editorProject = .ok tree ∧
      ∀ again, normalize "/home/ann" again {} tree = pure editorProject := by
  have built : (normalize "/home/ann" ⟨[("NAME", "code")]⟩ {} editorDocument).result =
      .ok editorProject := eq_ok_of_toOption (by decide +kernel)
  refine normalize_outline rfl built ?_
  intro w window pane member s size _
  obtain rfl : s = "30" := by
    simp only [editorProject, List.mem_singleton] at window
    subst window
    simp only [List.mem_cons, List.not_mem_nil, or_false] at member
    rcases member with rfl | rfl <;> simp_all
  exact ⟨List.all_eq_true.mp (by decide), by decide⟩

end SessionPlan.Document
