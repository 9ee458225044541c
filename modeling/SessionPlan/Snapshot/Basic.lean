import SessionPlan.Document.Scalars

/-! Live sessions: the windows and panes of one session, each with what it shows right now. -/
namespace SessionPlan

structure LivePane where
  index : Int
  workingDir : Option String := none
  /-- The program in the foreground. -/
  command : Option String := none
  deriving DecidableEq, Repr

structure LiveWindow where
  index : Int
  name : Option String := none
  layout : Option String := none
  panes : List LivePane := []
  deriving DecidableEq, Repr

structure Snapshot where
  sessionName : String
  windows : List LiveWindow := []
  deriving DecidableEq, Repr

namespace LivePane

def directory (p : LivePane) : Option String := Path.normal p.workingDir

/-- The name of a program, without its directory. The shell of a login shows up with a dash in
front. -/
def programName (command : String) : String :=
  let word := (Text.strip command).toList.dropWhile (· == '-')
  String.ofList ((word.reverse.takeWhile (· != '/')).reverse)

/-- The command to type so that the pane runs what it runs now; an idle shell needs none. -/
def typed (shells : List String) (p : LivePane) : List String :=
  match p.command.filter (!·.isEmpty) with
  | none => []
  | some command =>
    if shells.contains (programName command) then [] else [Document.commandLine command]

end LivePane

namespace LiveWindow

def directory (w : LiveWindow) : Option String := w.panes.head?.bind LivePane.directory

/-- Whether the window has a name that cannot stand in a target. -/
def hasForbiddenName (w : LiveWindow) : Bool := w.name.any Document.holdsSeparator

/-- The name, if it can stand in a target. -/
def usableName (w : LiveWindow) : Option String :=
  if w.hasForbiddenName then none else w.name.filter (!·.isEmpty)

end LiveWindow
end SessionPlan
