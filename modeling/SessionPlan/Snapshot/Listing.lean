import SessionPlan.Snapshot.Basic

/-! Listings of live panes: a line for each pane, its fields between tabs. A listing may hold the
panes of other sessions as well. -/
namespace SessionPlan.Snapshot
open SessionPlan.Text

/-- The fields of a line, in their order. -/
def fieldNames : List String :=
  ["session_name", "window_index", "window_name", "window_layout", "pane_index",
   "pane_current_path", "pane_current_command"]

/-- The format in which the multiplexer writes such lines. -/
def lineFormat : String := join "\t" (fieldNames.map fun name => "#\x7b" ++ name ++ "\x7d")

/-- One line of a listing, taken apart. -/
structure Line where
  session : String
  window : String
  name : String
  layout : String
  pane : String
  path : String
  command : String
  deriving DecidableEq, Repr

/-- Tabs beyond those between the fields belong to the name of the window. -/
def Line.ofFields? : List String → Option Line
  | session :: window :: rest =>
    match rest.reverse with
    | command :: path :: pane :: layout :: last :: more =>
      some ⟨session, window, join "\t" (last :: more).reverse, layout, pane, path, command⟩
    | _ => none
  | _ => none

def linePath (number : Nat) : String := "line " ++ ofNat number

/-- The line of that number, taken apart. -/
def readLine (number : Nat) (text : String) : Except Failure Line :=
  let fields := split text '\t'
  match Line.ofFields? fields with
  | some line => .ok line
  | none => reject (.listingFieldsMissing fieldNames.length fields.length) (linePath number)

def readIndex (number : Nat) (what text : String) : Except Failure Int :=
  match integer? text with
  | some n => .ok n
  | none => reject (.listingIndex what text) (linePath number)

/-- An empty field says nothing. -/
def said (text : String) : Option String := if text.isEmpty then none else some text

/-- The window and the pane that a line tells of. -/
def windowOfLine (number : Nat) (line : Line) : Except Failure LiveWindow := do
  let window ← readIndex number "window index" line.window
  let pane ← readIndex number "pane index" line.pane
  return {
    index := window
    name := said line.name
    layout := said line.layout
    panes := [{ index := pane, workingDir := said line.path, command := said line.command }] }

/-- The panes of a window go to the window of that index, which keeps its name and layout. -/
def addWindow (w : LiveWindow) : List LiveWindow → List LiveWindow
  | [] => [w]
  | first :: rest =>
    if first.index = w.index then { first with panes := first.panes ++ w.panes } :: rest
    else first :: addWindow w rest

/-- Adds the windows of a session, from lines of which the first has the given number. -/
def windowsFrom (session : String) (windows : List LiveWindow) (number : Nat) :
    List String → Except Failure (List LiveWindow)
  | [] => .ok windows
  | text :: rest =>
    if isBlankText text then windowsFrom session windows (number + 1) rest
    else do
      let line ← readLine number text
      if line.session != session then windowsFrom session windows (number + 1) rest
      else
        let window ← windowOfLine number line
        windowsFrom session (addWindow window windows) (number + 1) rest

/-- Reads a session out of a listing. Windows and panes keep the order of the lines. -/
def ofListing (text session : String) : Except Failure Snapshot := do
  match ← windowsFrom session [] 1 (lines text) with
  | [] => reject (.sessionNotListed session) "session_name"
  | windows => return ⟨session, windows⟩

end SessionPlan.Snapshot
