import SessionPlan.Project
import SessionPlan.Shell

/-! The commands that a session is made with. A command is a list of words; its text quotes each
of them, so that no text of the user can become a word of its own. -/
namespace SessionPlan

structure WindowTarget where
  session : String
  window : Int
  deriving DecidableEq, Repr

structure PaneTarget where
  window : WindowTarget
  pane : Int
  deriving DecidableEq, Repr

def WindowTarget.text (t : WindowTarget) : String := t.session ++ ":" ++ Text.ofInt t.window

def PaneTarget.text (t : PaneTarget) : String := t.window.text ++ "." ++ Text.ofInt t.pane

inductive Command where
  | newSession (session : String) (window directory : Option String)
  | setBaseIndex (session : String) (index : Int)
  | renumberWindows (session : String)
  | newWindow (target : WindowTarget) (name directory : Option String)
  | setPaneBaseIndex (target : WindowTarget) (index : Int)
  | splitWindow (target : PaneTarget) (direction : Option SplitDirection)
      (size directory : Option String)
  | titlePane (target : PaneTarget) (title : String)
  | selectLayout (target : WindowTarget) (layout : String)
  | runShell (command : String)
  | typeLine (target : PaneTarget) (line : String)
  | clearScreen (target : PaneTarget)
  | selectWindow (target : WindowTarget)
  | selectPane (target : PaneTarget)
  | attach (session : String)
  deriving DecidableEq, Repr

namespace Command

/-- A flag with its value, if there is one. -/
def option (flag : String) : Option String → List String
  | some value => [flag, value]
  | none => []

/-- In a shell command `#` would begin a format, so it is written twice. -/
def doubleHashes (s : String) : String :=
  String.ofList (s.toList.flatMap fun c => if c = '#' then ['#', '#'] else [c])

def words : Command → List String
  | .newSession session window directory =>
    ["new-session", "-d", "-s", session] ++ option "-n" window ++ option "-c" directory
  | .setBaseIndex session index =>
    ["set-option", "-t", session, "base-index", Text.ofInt index]
  | .renumberWindows session => ["move-window", "-r", "-t", session]
  | .newWindow target name directory =>
    ["new-window", "-t", target.text] ++ option "-n" name ++ option "-c" directory
  | .setPaneBaseIndex target index =>
    ["set-option", "-w", "-t", target.text, "pane-base-index", Text.ofInt index]
  | .splitWindow target direction size directory =>
    ["split-window", "-t", target.text] ++ (direction.map SplitDirection.flag).toList ++
      option "-l" size ++ option "-c" directory
  | .titlePane target title => ["select-pane", "-t", target.text, "-T", title]
  | .selectLayout target layout => ["select-layout", "-t", target.text, layout]
  | .runShell command => ["run-shell", doubleHashes command]
  | .typeLine target line => ["send-keys", "-t", target.text, line, "C-m"]
  | .clearScreen target => ["send-keys", "-t", target.text, "C-l"]
  | .selectWindow target => ["select-window", "-t", target.text]
  | .selectPane target => ["select-pane", "-t", target.text]
  | .attach session => ["attach-session", "-t", session]

def text (c : Command) : String := Shell.joinWords c.words

end Command
end SessionPlan
