import SessionPlan.Problem

/-! The field names that documents may use. Each field has its own name first and then the other
accepted ones; where a document uses several names of a field, the one listed first wins. -/
namespace SessionPlan.Document

inductive ProjectField where
  | sessionName | tmuxCommand | tmuxOptions | tmuxSocket | workingDir | windowBaseIndex
  | paneBaseIndex | startupWindow | startupPane | onStart | onFirstStart | onRestart | onExit
  | onStop | postCreate | onPaneCreate | postPaneCreate | paneCommands | attach | detached
  | windows
  deriving DecidableEq, Repr

inductive WindowField where
  | name | workingDir | layout | onCreate | postCreate | onPaneCreate | postPaneCreate
  | paneCommands | panes
  deriving DecidableEq, Repr

inductive PaneField where
  | name | workingDir | split | splitFrom | splitSize | clear | onCreate | postCreate | commands
  deriving DecidableEq, Repr

/-- Fields of one entity, each with its accepted names. -/
structure Vocabulary (F : Type) where
  entity : Entity
  names : List (F × List String)

def projectVocabulary : Vocabulary ProjectField where
  entity := .project
  names := [
    (.sessionName, ["session_name", "name"]),
    (.tmuxCommand, ["tmux_command"]),
    (.tmuxOptions, ["tmux_options"]),
    (.tmuxSocket, ["tmux_socket", "socket_name"]),
    (.workingDir, ["working_dir", "root"]),
    (.windowBaseIndex, ["window_base_index"]),
    (.paneBaseIndex, ["pane_base_index"]),
    (.startupWindow, ["startup_window"]),
    (.startupPane, ["startup_pane"]),
    (.onStart, ["on_start", "on_project_start"]),
    (.onFirstStart, ["on_first_start", "on_project_first_start", "on_create"]),
    (.onRestart, ["on_restart", "on_project_restart"]),
    (.onExit, ["on_exit", "on_project_exit"]),
    (.onStop, ["on_stop", "on_project_stop"]),
    (.postCreate, ["post_create"]),
    (.onPaneCreate, ["on_pane_create"]),
    (.postPaneCreate, ["post_pane_create"]),
    (.paneCommands, ["pane_commands", "pane_command", "pre_window", "pre"]),
    (.attach, ["attach", "tmux_attached"]),
    (.detached, ["detached", "tmux_detached"]),
    (.windows, ["windows", "window"])]

def windowVocabulary : Vocabulary WindowField where
  entity := .window
  names := [
    (.name, ["name", "title"]),
    (.workingDir, ["working_dir", "root"]),
    (.layout, ["layout"]),
    (.onCreate, ["on_create"]),
    (.postCreate, ["post_create"]),
    (.onPaneCreate, ["on_pane_create"]),
    (.postPaneCreate, ["post_pane_create"]),
    (.paneCommands, ["pane_commands", "pane_command", "pre"]),
    (.panes, ["panes"])]

def paneVocabulary : Vocabulary PaneField where
  entity := .pane
  names := [
    (.name, ["name", "title"]),
    (.workingDir, ["working_dir", "root"]),
    (.split, ["split"]),
    (.splitFrom, ["split_from"]),
    (.splitSize, ["split_size"]),
    (.clear, ["clear"]),
    (.onCreate, ["on_create"]),
    (.postCreate, ["post_create"]),
    (.commands, ["commands", "command"])]

namespace Vocabulary

/-- The field that a name stands for, with the name's place among the names of the field. -/
def find? (v : Vocabulary F) (name : String) : Option (F × Nat) :=
  v.names.findSome? fun (field, names) => (names.idxOf? name).map fun rank => (field, rank)

def canonical [DecidableEq F] (v : Vocabulary F) (field : F) : String :=
  ((v.names.find? (·.1 = field)).bind (·.2.head?)).getD ""

/-- Whether a key of a mapping names a field. -/
def keyField? (v : Vocabulary F) : Tree → Option (String × F × Nat)
  | .text name => (v.find? name).map fun (field, rank) => (name, field, rank)
  | _ => none

end Vocabulary

/-- Fields that make a project more than empty. -/
def contentFields : List ProjectField :=
  [.sessionName, .workingDir, .windows, .paneCommands, .onStart, .onFirstStart, .onRestart, .onExit,
   .onStop, .postCreate, .onPaneCreate, .postPaneCreate]

example : contentFields.map projectVocabulary.canonical = contentFieldNames := by decide

end SessionPlan.Document
