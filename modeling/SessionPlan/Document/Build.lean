import SessionPlan.Document.Scalars
import SessionPlan.Variables

/-! A project out of a document tree whose variables are already expanded. Whatever way a window
or a pane is written, it ends up as fields, and the fields are read in a fixed order. -/
namespace SessionPlan.Document

/-- What a build leaves on its way and how it ends. -/
abbrev Build (α : Type) := Noted Conflict Failure α

/-- The field's value, null where it is absent. -/
def orNull (fields : F → Option Tree) (field : F) : Tree := (fields field).getD .null

def paneOfFields (home path : String) (index : Int) (fields : PaneField → Option Tree) :
    Except Failure Pane := do
  let value := orNull fields
  return {
    index
    name := nonempty (← optionalText (fieldPath path "name") (value .name))
    workingDir :=
      ← optionalDirectory home (fieldPath path "working_dir") (fields .workingDir)
    split := ← splitDirection (fieldPath path "split") (value .split)
    splitFrom := ← count (fieldPath path "split_from") (value .splitFrom)
    splitSize := ← splitSize (fieldPath path "split_size") (value .splitSize)
    clear := ← clearFlag (fieldPath path "clear") (value .clear)
    onCreate := ← commands (fieldPath path "on_create") (value .onCreate)
    postCreate := ← commands (fieldPath path "post_create") (value .postCreate)
    commands := ← commands (fieldPath path "commands") (value .commands) }

/-- A pane from its entry: nothing, commands, or a mapping. -/
def pane (home path : String) (index : Int) : Tree → Build Pane
  | .null => return { index }
  | .mapping entries => do
    let pairs ← entryPairs paneVocabulary "commands" path entries
    let fields ← readFields paneVocabulary path pairs
    paneOfFields home path index fields
  | .list items => do return { index, commands := ← commands path (.list items) }
  | value => do
    if isScalar value then return { index, commands := ← commands path value }
    else Noted.lift (reject (.entryKind .pane value) path)

/-- Panes are numbered from the base index, and their places in `path` from zero. -/
def paneList (home path : String) (base : Int) (position : Nat) : List Tree → Build (List Pane)
  | [] => return []
  | entry :: rest => do
    let first ← pane home (itemPath path position) (base + position) entry
    return first :: (← paneList home path base (position + 1) rest)

/-- A single entry stands for a list of one. -/
def entryList : Tree → List Tree
  | .list items => items
  | entry => [entry]

def panes (home path : String) (base : Int) : Tree → Build (List Pane)
  | .null => return [{ index := base }]
  | value =>
    match entryList value with
    | [] => Noted.lift (reject .panesMissing path)
    | entries => paneList home path base 0 entries

/-- The first pane that asks for a split of its own in a window with a layout, and the field. -/
def layoutConflict? (position : Nat) : List Pane → Option (Nat × Pane × String)
  | [] => none
  | p :: rest =>
    if p.split.isSome then some (position, p, "split")
    else if p.splitSize.isSome then some (position, p, "split_size")
    else layoutConflict? (position + 1) rest

/-- A layout arranges all panes, so none of them may declare a split. -/
def checkLayout (path : String) (w : Window) : Except Failure Unit :=
  match w.layout.filter (!·.isEmpty), layoutConflict? 0 w.panes with
  | some layout, some (position, p, field) =>
    reject (.splitInLayout field layout w.index p.index)
      (fieldPath (itemPath (fieldPath path "panes") position) field)
  | _, _ => .ok ()

def windowOfFields (home path : String) (index base : Int) (fields : WindowField → Option Tree) :
    Build Window := do
  let value := orNull fields
  let layout ← optionalText (fieldPath path "layout") (value .layout)
  let window : Window := {
    index
    name := ← targetName .window (fieldPath path "name") (value .name)
    workingDir :=
      ← optionalDirectory home (fieldPath path "working_dir") (fields .workingDir)
    layout := nonempty (layout.map Text.strip)
    onCreate := ← commands (fieldPath path "on_create") (value .onCreate)
    postCreate := ← commands (fieldPath path "post_create") (value .postCreate)
    onPaneCreate := ← commands (fieldPath path "on_pane_create") (value .onPaneCreate)
    postPaneCreate := ← commands (fieldPath path "post_pane_create") (value .postPaneCreate)
    paneCommands := ← commands (fieldPath path "pane_commands") (value .paneCommands)
    panes := ← panes home (fieldPath path "panes") base (value .panes) }
  checkLayout path window
  return window

/-- A window from its entry: nothing, its panes, or a mapping. -/
def window (home path : String) (index base : Int) : Tree → Build Window
  | .null => return { index, panes := [{ index := base }] }
  | .mapping entries => do
    let pairs ← entryPairs windowVocabulary "panes" path entries
    let fields ← readFields windowVocabulary path pairs
    windowOfFields home path index base fields
  | .list items => do
    return { index, panes := ← panes home (fieldPath path "panes") base (.list items) }
  | value => do
    if isScalar value then
      return { index, panes := ← panes home (fieldPath path "panes") base value }
    else Noted.lift (reject (.entryKind .window value) path)

def windowList (home : String) (windowBase paneBase : Int) (position : Nat) :
    List Tree → Build (List Window)
  | [] => return []
  | entry :: rest => do
    let first ←
      window home (itemPath "windows" position) (windowBase + position) paneBase entry
    return first :: (← windowList home windowBase paneBase (position + 1) rest)

def windows (home : String) (windowBase paneBase : Int) : Tree → Build (List Window)
  | .null => return [{ index := windowBase, panes := [{ index := paneBase }] }]
  | value =>
    match entryList value with
    | [] => Noted.lift (reject .windowsMissing "windows")
    | entries => windowList home windowBase paneBase 0 entries

/-- Whether the session is attached to: the caller's word counts first, then the document's, which
may say it either way but not both. -/
def attachment (fields : ProjectField → Option Tree) (forced : Option Bool) :
    Except Failure Bool := do
  let attach ← optionalFlag "attach" (orNull fields .attach)
  let detached ← optionalFlag "detached" (orNull fields .detached)
  match attach, detached with
  | some a, some d => reject (.attachTwice a d) "attach"
  | _, _ => return forced.getD ((attach.or (detached.map (!·))).getD true)

/-- The startup selection must name a window and, if it names a pane, one of that window. -/
def checkStartup (p : Project) : Except Failure Unit :=
  match p.window? p.startupWindow with
  | none =>
    reject (.startupWindowUnknown (p.startupWindow.getD (.name ""))) "startup_window"
  | some w =>
    match p.startupPane with
    | none => .ok ()
    | some n =>
      if p.paneBaseIndex ≤ n && n ≤ p.paneBaseIndex + w.panes.length - 1 then .ok ()
      else reject (.startupPaneUnknown n w.index) "startup_pane"

/-- The document's own name, else the one the caller gives. -/
def sessionName (fields : ProjectField → Option Tree) (given : Option String) :
    Except Failure (Option String) := do
  match ← targetName .project "session_name" (orNull fields .sessionName) with
  | some name => return some name
  | none =>
    match nonempty given with
    | none => return none
    | some name => targetName .project "session_name" (.text name)

/-- What a caller adds to a document: a name for a session that declares none, and whether to
attach. -/
structure Wishes where
  name : Option String := none
  attach : Option Bool := none
  deriving DecidableEq, Repr

def projectOfFields (home : String) (wishes : Wishes) (fields : ProjectField → Option Tree) :
    Build Project := do
  let value := orNull fields
  let windowBaseIndex := (← count "window_base_index" (value .windowBaseIndex)).getD 1
  let paneBaseIndex := (← count "pane_base_index" (value .paneBaseIndex)).getD 1
  let project : Project := {
    sessionName := ← sessionName fields wishes.name
    tmuxCommand := ← optionalText "tmux_command" (value .tmuxCommand)
    tmuxOptions := ← optionalText "tmux_options" (value .tmuxOptions)
    tmuxSocket := ← optionalText "tmux_socket" (value .tmuxSocket)
    workingDir := ← optionalDirectory home "working_dir" (fields .workingDir)
    windowBaseIndex
    paneBaseIndex
    startupWindow := ← selector "startup_window" (value .startupWindow)
    startupPane := ← count "startup_pane" (value .startupPane)
    onStart := ← commands "on_start" (value .onStart)
    onFirstStart := ← commands "on_first_start" (value .onFirstStart)
    onRestart := ← commands "on_restart" (value .onRestart)
    onExit := ← commands "on_exit" (value .onExit)
    onStop := ← commands "on_stop" (value .onStop)
    postCreate := ← commands "post_create" (value .postCreate)
    onPaneCreate := ← commands "on_pane_create" (value .onPaneCreate)
    postPaneCreate := ← commands "post_pane_create" (value .postPaneCreate)
    paneCommands := ← commands "pane_commands" (value .paneCommands)
    attach := ← attachment fields wishes.attach
    windows := ← windows home windowBaseIndex paneBaseIndex (value .windows) }
  checkStartup project
  return project

/-- Builds a project. `home` is the home directory that `~` stands for. -/
def build (home : String) (wishes : Wishes) : Tree → Build Project
  | .null => Noted.lift (reject .projectEmpty "")
  | .mapping entries => do
    let fields ← readFields projectVocabulary "" (plainPairs entries)
    if !contentFields.any fun field => (fields field).isSome then
      Noted.lift (reject .projectEmpty "")
    projectOfFields home wishes fields
  | value => Noted.lift (reject (.rootKind value) "")

/-- Expands the variables of a document and builds its project. -/
def normalize (home : String) (values : Variables) (wishes : Wishes) (document : Tree) :
    Build Project := do
  build home wishes (← document.expand values)

end SessionPlan.Document
