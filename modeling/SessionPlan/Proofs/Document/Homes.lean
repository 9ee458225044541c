import SessionPlan.Proofs.Document.Frame
import SessionPlan.Proofs.Failure
import SessionPlan.Proofs.Path.Home
import SessionPlan.Proofs.Plan.Directories

/-! Building a project at any home directory. The home directory has no part in it but for the
directories that are resolved against it: whatever is built where home is left open is built
everywhere, with these directories resolved. -/
namespace SessionPlan.Document
open SessionPlan.Path

variable (home path : String)

theorem directory_eq_map (value : Tree) :
    directory home path value = inHome home <$> directory openHome path value := by
  unfold directory
  split
  · rw [homeDirectory_eq_inHome]
    rfl
  · split
    · rcases value.written_outcome with ⟨-, written⟩ | ⟨-, long⟩
      · rw [written, ok_bind, ok_bind, expandHome?_eq_map home]
        cases expandHome? openHome _ <;> rfl
      · rw [long]
        rfl
    · rfl

theorem optionalDirectory_eq_map (value : Option Tree) :
    optionalDirectory home path value =
      (·.map (inHome home)) <$> optionalDirectory openHome path value := by
  cases value with
  | none => rfl
  | some value =>
    rw [optionalDirectory, optionalDirectory, directory_eq_map, bind_map_left, map_bind]
    rfl

theorem paneOfFields_eq_map (index : Int) (fields : PaneField → Option Tree) :
    paneOfFields home path index fields =
      (·.mapDirectory (inHome home)) <$> paneOfFields openHome path index fields := by
  rw [paneOfFields, optionalDirectory_eq_map]
  simp only [paneOfFields, bind_map_left, map_bind, map_pure]
  rfl

theorem pane_eq_map (index : Int) (entry : Tree) :
    pane home path index entry =
      (·.mapDirectory (inHome home)) <$> pane openHome path index entry := by
  unfold pane
  split
  · rfl
  · simp only [map_bind, paneOfFields_eq_map home, liftM_map]
  · rw [map_bind]
    rfl
  · split
    · rw [map_bind]
      rfl
    · rfl

theorem paneList_eq_map (base : Int) (position : Nat) (entries : List Tree) :
    paneList home path base position entries =
      (·.map (·.mapDirectory (inHome home))) <$> paneList openHome path base position entries := by
  induction entries generalizing position with
  | nil => rfl
  | cons entry rest ih =>
    rw [paneList, paneList, pane_eq_map, ih]
    simp only [bind_map_left, map_bind, map_pure, List.map_cons]

theorem panes_eq_map (base : Int) (value : Tree) :
    panes home path base value =
      (·.map (·.mapDirectory (inHome home))) <$> panes openHome path base value := by
  unfold panes
  split
  · rfl
  · split
    · rfl
    · exact paneList_eq_map ..

theorem layoutConflict?_map (f : String → String) (position : Nat) (list : List Pane) :
    layoutConflict? position (list.map (·.mapDirectory f)) =
      (layoutConflict? position list).map fun found =>
        (found.1, found.2.1.mapDirectory f, found.2.2) := by
  induction list generalizing position with
  | nil => rfl
  | cons p rest ih =>
    rw [List.map_cons, layoutConflict?, layoutConflict?, ih, apply_ite (Option.map _),
      apply_ite (Option.map _)]
    rfl

theorem checkLayout_map (f : String → String) (w : Window) :
    checkLayout path (w.mapDirectories f) = checkLayout path w := by
  have same : (w.mapDirectories f).layout = w.layout := rfl
  have panes : (w.mapDirectories f).panes = w.panes.map (·.mapDirectory f) := rfl
  rw [checkLayout, checkLayout, same, panes, layoutConflict?_map]
  cases w.layout.filter (!·.isEmpty) <;> cases layoutConflict? 0 w.panes <;> rfl

theorem windowFrame_eq_map (index : Int) (fields : WindowField → Option Tree) :
    windowFrame home path index fields =
      (·.mapDirectories (inHome home)) <$> windowFrame openHome path index fields := by
  rw [windowFrame, optionalDirectory_eq_map]
  simp only [windowFrame, bind_map_left, map_bind, map_pure]
  rfl

theorem windowWith_map (f : String → String) (frame : Window) (list : List Pane) :
    windowWith path (frame.mapDirectories f) (list.map (·.mapDirectory f)) =
      (·.mapDirectories f) <$> windowWith path frame list := by
  have checked := checkLayout_map path f { frame with panes := list }
  rw [windowWith, windowWith, map_bind, ← checked]
  rfl

theorem windowOfFields_eq_map (index base : Int) (fields : WindowField → Option Tree) :
    windowOfFields home path index base fields =
      (·.mapDirectories (inHome home)) <$> windowOfFields openHome path index base fields := by
  rw [windowOfFields_eq, windowOfFields_eq, windowFrame_eq_map, panes_eq_map]
  simp only [liftM_map, bind_map_left, map_bind, windowWith_map]

theorem window_eq_map (index base : Int) (entry : Tree) :
    window home path index base entry =
      (·.mapDirectories (inHome home)) <$> window openHome path index base entry := by
  unfold window
  split
  · rfl
  · simp only [map_bind, windowOfFields_eq_map home]
  · rw [panes_eq_map, bind_map_left, map_bind]
    rfl
  · split
    · rw [panes_eq_map, bind_map_left, map_bind]
      rfl
    · rfl

theorem windowList_eq_map (windowBase paneBase : Int) (position : Nat) (entries : List Tree) :
    windowList home windowBase paneBase position entries =
      (·.map (·.mapDirectories (inHome home))) <$>
        windowList openHome windowBase paneBase position entries := by
  induction entries generalizing position with
  | nil => rfl
  | cons entry rest ih =>
    rw [windowList, windowList, window_eq_map, ih]
    simp only [bind_map_left, map_bind, map_pure, List.map_cons]

theorem windows_eq_map (windowBase paneBase : Int) (value : Tree) :
    windows home windowBase paneBase value =
      (·.map (·.mapDirectories (inHome home))) <$> windows openHome windowBase paneBase value := by
  unfold windows
  split
  · rfl
  · split
    · rfl
    · exact windowList_eq_map ..

theorem checkStartup_map (f : String → String) (p : Project) :
    checkStartup (p.mapDirectories f) = checkStartup p := by
  have selected := p.window?_mapDirectories f p.startupWindow
  have named : (p.mapDirectories f).startupWindow = p.startupWindow := rfl
  rw [checkStartup, checkStartup, named, selected]
  cases p.window? p.startupWindow with
  | none => rfl
  | some w =>
    have panes : (w.mapDirectories f).panes.length = w.panes.length := List.length_map ..
    simp only [Option.map_some, panes]
    rfl

theorem projectFrame_eq_map (wishes : Wishes) (fields : ProjectField → Option Tree) :
    projectFrame home wishes fields =
      (·.mapDirectories (inHome home)) <$> projectFrame openHome wishes fields := by
  rw [projectFrame, optionalDirectory_eq_map]
  simp only [projectFrame, bind_map_left, map_bind, map_pure]
  rfl

theorem projectWith_map (f : String → String) (frame : Project) (list : List Window) :
    projectWith (frame.mapDirectories f) (list.map (·.mapDirectories f)) =
      (·.mapDirectories f) <$> projectWith frame list := by
  have checked := checkStartup_map f { frame with windows := list }
  rw [projectWith, projectWith, map_bind, ← checked]
  rfl

theorem projectOfFields_eq_map (wishes : Wishes) (fields : ProjectField → Option Tree) :
    projectOfFields home wishes fields =
      (·.mapDirectories (inHome home)) <$> projectOfFields openHome wishes fields := by
  have bases (frame : Project) : (frame.mapDirectories (inHome home)).windowBaseIndex =
      frame.windowBaseIndex ∧ (frame.mapDirectories (inHome home)).paneBaseIndex =
      frame.paneBaseIndex := ⟨rfl, rfl⟩
  rw [projectOfFields_eq, projectOfFields_eq, projectFrame_eq_map]
  simp only [liftM_map, bind_map_left, map_bind, bases, windows_eq_map home, projectWith_map]

theorem build_eq_map (wishes : Wishes) (document : Tree) :
    build home wishes document =
      (·.mapDirectories (inHome home)) <$> build openHome wishes document := by
  unfold build
  split
  · rfl
  · simp only [map_bind, projectOfFields_eq_map home]
    refine bind_congr fun fields => ?_
    split <;> rfl
  · rfl

theorem normalize_eq_map (values : Variables) (wishes : Wishes) (document : Tree) :
    normalize home values wishes document =
      (·.mapDirectories (inHome home)) <$> normalize openHome values wishes document := by
  rw [normalize, normalize, map_bind]
  simp only [build_eq_map home]

end SessionPlan.Document
