import SessionPlan.Problem

/-! Sessions as they are declared: a project of windows, a window of panes, with the hooks and
commands of each level, and what a pane inherits. -/
namespace SessionPlan
open SessionPlan.Text

inductive SplitDirection where
  | horizontal | vertical
  deriving DecidableEq, Repr

namespace SplitDirection

def name : SplitDirection → String
  | .horizontal => "horizontal"
  | .vertical => "vertical"

def flag : SplitDirection → String
  | .horizontal => "-h"
  | .vertical => "-v"

/-- The first letter or the whole word, in any case, between blanks. Only ASCII letters have one
of these words as their lower case. -/
def ofText? (s : String) : Option SplitDirection :=
  let word := lowerAscii (strip s)
  if word == "h" || word == "horizontal" then some .horizontal
  else if word == "v" || word == "vertical" then some .vertical
  else none

end SplitDirection

structure Pane where
  index : Int := 1
  name : Option String := none
  workingDir : Option String := none
  split : Option SplitDirection := none
  splitFrom : Option Int := none
  splitSize : Option String := none
  clear : Bool := false
  onCreate : List String := []
  postCreate : List String := []
  commands : List String := []
  deriving DecidableEq, Repr

structure Window where
  index : Int := 1
  name : Option String := none
  workingDir : Option String := none
  layout : Option String := none
  onCreate : List String := []
  postCreate : List String := []
  onPaneCreate : List String := []
  postPaneCreate : List String := []
  paneCommands : List String := []
  panes : List Pane := [{}]
  deriving DecidableEq, Repr

structure Project where
  sessionName : Option String := none
  tmuxCommand : Option String := none
  tmuxOptions : Option String := none
  tmuxSocket : Option String := none
  workingDir : Option String := none
  windowBaseIndex : Int := 1
  paneBaseIndex : Int := 1
  startupWindow : Option Selector := none
  startupPane : Option Int := none
  onStart : List String := []
  onFirstStart : List String := []
  onRestart : List String := []
  onExit : List String := []
  onStop : List String := []
  postCreate : List String := []
  onPaneCreate : List String := []
  postPaneCreate : List String := []
  paneCommands : List String := []
  attach : Bool := true
  windows : List Window := [{}]
  deriving DecidableEq, Repr

/-- An absent text and an empty one both yield to the alternative. -/
def orNonempty (s : Option String) (alternative : Option String) : Option String :=
  match s with
  | some text => if text.isEmpty then alternative else s
  | none => alternative

namespace Window

/-- An empty layout is none. -/
def hasLayout (w : Window) : Bool := w.layout.any (!·.isEmpty)

def layoutNames : List String :=
  ["even-horizontal", "even-vertical", "main-horizontal", "main-vertical", "tiled"]

def hasNamedLayout (w : Window) : Bool := w.layout.any layoutNames.contains

end Window

namespace Selector

def selects (selector : Selector) (w : Window) : Bool :=
  match selector with
  | .index n => w.index == n
  | .name s => w.name == some s

end Selector

/-- What a pane runs and where, with all that it inherits. -/
structure ResolvedPane where
  pane : Pane
  workingDir : Option String
  onCreate : List String
  commands : List String
  postCreate : List String
  deriving DecidableEq, Repr

namespace Project

/-- The first window that the selector names; without a selector the first window. -/
def window? (p : Project) : Option Selector → Option Window
  | none => p.windows.head?
  | some selector => p.windows.find? selector.selects

/-- The multiplexer to call: an override, else the project's own, else the usual one. -/
def multiplexer (p : Project) (override : Option String) : String :=
  (orNonempty override (orNonempty p.tmuxCommand none)).getD "tmux"

def windowDir (p : Project) (w : Window) : Option String := orNonempty w.workingDir p.workingDir

/-- Directories are overridden level by level; hooks and commands add up, outermost first. -/
def resolve (p : Project) (w : Window) (pane : Pane) : ResolvedPane where
  pane := pane
  workingDir := orNonempty pane.workingDir (p.windowDir w)
  onCreate := p.onPaneCreate ++ w.onPaneCreate ++ pane.onCreate
  commands := p.paneCommands ++ w.paneCommands ++ pane.commands
  postCreate := p.postPaneCreate ++ w.postPaneCreate ++ pane.postCreate

end Project
end SessionPlan
