import SessionPlan.Command
import SessionPlan.Geometry
import SessionPlan.Position

/-! The plan of a session: every command that makes it, in groups by purpose and in the order in
which they must run. A pane has to be there before it is split, typed into or used by a hook. An
index that is new in a function is written out there, so that it is asked first whether it can be. -/
namespace SessionPlan

/-- What a group is for. A window after the first is opened by a split group: like a split, it
adds one pane to the session. -/
inductive Role where
  | create | split | layout | onCreate | onPaneCreate | paneCommands | postPaneCreate | postCreate
  | select | attach
  deriving DecidableEq, Repr

def Role.name : Role → String
  | .create => "create"
  | .split => "split"
  | .layout => "layout"
  | .onCreate => "hook:on_create"
  | .onPaneCreate => "hook:on_pane_create"
  | .paneCommands => "pane_commands"
  | .postPaneCreate => "hook:post_pane_create"
  | .postCreate => "hook:post_create"
  | .select => "select"
  | .attach => "attach"

structure Group where
  role : Role
  commands : List Command
  window : Option Int := none
  pane : Option Int := none
  deriving DecidableEq, Repr

/-- Hooks that run outside the making of the session, each when the live state calls for it. -/
inductive Occasion where
  | start | firstStart | restart | exit | stop
  deriving DecidableEq, Repr

namespace Occasion

def all : List Occasion := [.start, .firstStart, .restart, .exit, .stop]

def name : Occasion → String
  | .start => "on_start"
  | .firstStart => "on_first_start"
  | .restart => "on_restart"
  | .exit => "on_exit"
  | .stop => "on_stop"

def hooks (p : Project) : Occasion → List String
  | .start => p.onStart
  | .firstStart => p.onFirstStart
  | .restart => p.onRestart
  | .exit => p.onExit
  | .stop => p.onStop

end Occasion

structure Plan where
  sessionName : String
  tmuxArgs : List String
  groups : List Group
  occasions : List (Occasion × List String)
  deriving DecidableEq, Repr

/-- What the placeholders of a hook stand for in its scope. -/
structure Scope where
  tmux : String
  session : String
  window : Option String := none
  pane : Option String := none
  deriving DecidableEq, Repr

namespace Scope

def placeholders (s : Scope) : List (String × Option String) :=
  [("__TMUX__", some s.tmux), ("__SESSION__", some s.session), ("__WINDOW__", s.window),
   ("__PANE__", s.pane)]

/-- Fills the placeholders in, one kind after the other; those that the scope does not define
stay. -/
def fill (s : Scope) (command : String) : String :=
  s.placeholders.foldl (fun text (placeholder, value) =>
    match value with
    | some v => Text.replace text placeholder v
    | none => text) command

end Scope

namespace Project

def commandLine (line : String) : Except Failure (List String) :=
  match Shell.split line with
  | .ok words => .ok words
  | .error flaw => reject (.commandLineUnreadable flaw) "tmux_options"

/-- The words that call the multiplexer: its command line, the socket, the options. -/
def tmuxArguments (p : Project) (override : Option String) : Except Failure (List String) := do
  let command ← commandLine (p.multiplexer override)
  let socket := match orNonempty p.tmuxSocket none with
    | some name => ["-L", name]
    | none => []
  let options ← commandLine (p.tmuxOptions.getD "")
  match command ++ socket ++ options with
  | [] => reject .commandLineEmpty "tmux_command"
  | args => return args

end Project

/-- The constants of one plan. -/
structure Planner where
  project : Project
  session : String
  tmux : String

namespace Planner

def target (pl : Planner) (w : Window) : WindowTarget := ⟨pl.session, w.index⟩

def paneTarget (pl : Planner) (w : Window) (live : Int) : PaneTarget := ⟨pl.target w, live⟩

def scope (pl : Planner) (w : Option Window) (pane : Option PaneTarget) : Scope where
  tmux := pl.tmux
  session := pl.session
  window := w.map fun w => (pl.target w).text
  pane := pane.map PaneTarget.text

/-- A group without commands is left out. -/
def group (role : Role) (commands : List Command) (window pane : Option Int) : List Group :=
  if commands.isEmpty then [] else [⟨role, commands, window, pane⟩]

def hooks (pl : Planner) (w : Option Window) (pane : Option PaneTarget) (commands : List String) :
    List Command :=
  commands.map fun command => .runShell ((pl.scope w pane).fill command)

/-- Makes a window with its first pane. The session is made with the first window, which then gets
its number from the base index. -/
def openWindow (pl : Planner) (w : Window) (first : Bool) : Except Failure (List Group) :=
  match w.panes with
  | [] => .error (.fault .indexMissing)
  | pane :: _ => do
    let p := pl.project
    ensureWritable (w.index :: p.paneBaseIndex :: if first then [p.windowBaseIndex] else [])
    let directory := orNonempty (p.resolve w pane).workingDir none
    let opening := if first
      then [.newSession pl.session w.name directory, .setBaseIndex pl.session p.windowBaseIndex,
        .renumberWindows pl.session]
      else [.newWindow (pl.target w) w.name directory]
    let title := pane.name.toList.map (.titlePane (pl.paneTarget w p.paneBaseIndex))
    return (group (if first then .create else .split)
      (opening ++ .setPaneBaseIndex (pl.target w) p.paneBaseIndex :: title)
      (some w.index) (some p.paneBaseIndex))

/-- Makes one further pane, which is live right after its source. -/
def splitGroup (pl : Planner) (w : Window) (s : Split) : Except Failure (List Group) :=
  match w.panes[s.pane]? with
  | none => .error (.fault .indexMissing)
  | some pane => do
    ensureWritable (s.sourceTarget :: if pane.name.isSome then [s.sourceTarget + 1] else [])
    let directory := orNonempty (pl.project.resolve w pane).workingDir none
    let title := pane.name.toList.map (.titlePane (pl.paneTarget w (s.sourceTarget + 1)))
    return (group .split
      (.splitWindow (pl.paneTarget w s.sourceTarget) s.direction s.size directory :: title)
      (some w.index) (some pane.index))

def layoutGroup (pl : Planner) (w : Window) (g : Geometry) : List Group :=
  group .layout ((orNonempty g.layout none).toList.map (.selectLayout (pl.target w)))
    (some w.index) none

/-- Hooks and typed lines of one pane. A pane that clears does so after its commands. -/
def paneGroups (pl : Planner) (w : Window) (pane : Pane) (live : Int) : List Group :=
  let resolved := pl.project.resolve w pane
  let target := pl.paneTarget w live
  let scope := pl.scope (some w) (some target)
  let typed := resolved.commands.map fun command => .typeLine target (scope.fill command)
  let clear := if pane.clear then [.clearScreen target] else []
  group .onPaneCreate (pl.hooks (some w) (some target) resolved.onCreate)
      (some w.index) (some pane.index) ++
    group .paneCommands (typed ++ clear) (some w.index) (some pane.index) ++
    group .postPaneCreate (pl.hooks (some w) (some target) resolved.postCreate)
      (some w.index) (some pane.index)

def allPaneGroups (pl : Planner) (w : Window) : List Pane → List Int → Except Failure (List Group)
  | [], _ => .ok []
  | _ :: _, [] => .error (.fault .indexMissing)
  | pane :: panes, live :: indices => do
    ensureWritable [live]
    return pl.paneGroups w pane live ++ (← allPaneGroups pl w panes indices)

/-- All groups of one window: it is made and split, arranged, and then put to work. -/
def windowGroups (pl : Planner) (w : Window) (g : Geometry) (first : Bool) :
    Except Failure (List Group) := do
  let opened ← pl.openWindow w first
  let splits ← g.splits.mapM (pl.splitGroup w)
  let panes ← pl.allPaneGroups w w.panes g.finalIndices
  return opened ++ splits.flatten ++ pl.layoutGroup w g ++
    group .onCreate (pl.hooks (some w) none w.onCreate) (some w.index) none ++ panes ++
    group .postCreate (pl.hooks (some w) none w.postCreate) (some w.index) none

/-- Windows of one index share the geometry of the last of them. -/
def geometryOf? (geometries : List (Int × Geometry)) (index : Int) : Option Geometry :=
  geometries.reverse.lookup index

/-- Where among the panes of its window the pane stands that is shown first. -/
def startupPlace (p : Project) : Int :=
  match p.startupPane with
  | some n => n - p.paneBaseIndex
  | none => 0

/-- Selects the window and the pane that the session shows first. -/
def startupGroup (pl : Planner) (geometries : List (Int × Geometry)) :
    Except Failure (List Group) :=
  let p := pl.project
  match p.window? p.startupWindow with
  | none => .error (.fault .partMissing)
  | some w =>
    match geometryOf? geometries w.index with
    | none => .error (.fault .keyMissing)
    | some g =>
      match itemAt? g.finalIndices (startupPlace p) with
      | none => .error (.fault .indexMissing)
      | some live => do
        ensureWritable [live]
        let some pane := itemAt? w.panes (startupPlace p) | throw (.fault .indexMissing)
        return group .select [.selectWindow (pl.target w), .selectPane (pl.paneTarget w live)]
          (some w.index) (some pane.index)

end Planner

namespace Project

def geometriesFrom (base : Int) (position : Nat) :
    List Window → Except Failure (List (Int × Geometry))
  | [] => .ok []
  | w :: rest => do
    let g ← Geometry.ofWindow w base ("windows[" ++ Text.ofNat position ++ "]")
    return (w.index, g) :: (← geometriesFrom base (position + 1) rest)

/-- The geometry of every window, worked out before anything is planned. -/
def geometries (p : Project) : Except Failure (List (Int × Geometry)) :=
  geometriesFrom p.paneBaseIndex 0 p.windows

def windowsGroups (pl : Planner) (geometries : List (Int × Geometry)) (first : Bool) :
    List Window → Except Failure (List Group)
  | [] => .ok []
  | w :: rest => do
    let some g := Planner.geometryOf? geometries w.index | throw (.fault .keyMissing)
    let groups ← pl.windowGroups w g first
    return groups ++ (← windowsGroups pl geometries false rest)

def planner (p : Project) (session : String) (args : List String) : Planner :=
  ⟨p, session, Shell.joinWords args⟩

def occasions (pl : Planner) : List (Occasion × List String) :=
  Occasion.all.map fun occasion =>
    (occasion, (occasion.hooks pl.project).map (pl.scope none none).fill)

/-- The name of the session, which has to be there. -/
def session (p : Project) : Except Failure String :=
  match orNonempty p.sessionName none with
  | some name => .ok name
  | none => reject .sessionUnnamed "session_name"

/-- The session's name and the multiplexer's arguments, without which nothing is planned. -/
def prerequisites (p : Project) (override : Option String) :
    Except Failure (String × List String) := do
  let session ← p.session
  return (session, ← p.tmuxArguments override)

/-- Plans a session. `override` is a multiplexer that takes the place of the project's own. -/
def plan (p : Project) (override : Option String) : Except Failure Plan := do
  let (session, args) ← p.prerequisites override
  let geometries ← p.geometries
  let pl := p.planner session args
  let windows ← windowsGroups pl geometries true p.windows
  let startup ← pl.startupGroup geometries
  return {
    sessionName := session
    tmuxArgs := args
    groups := windows ++
      Planner.group .postCreate (pl.hooks none none p.postCreate) none none ++ startup ++
      if p.attach then [⟨.attach, [.attach session], none, none⟩] else []
    occasions := occasions pl }

end Project

namespace Plan

def groupsWithRole (plan : Plan) (role : String) : List Group :=
  plan.groups.filter (·.role.name == role)

/-- The commands as one text, a command a line. Attaching needs a client, so it is left out unless
asked for. -/
def source (plan : Plan) (withAttach : Bool) : String :=
  let groups := plan.groups.filter fun g => withAttach || g.role != .attach
  String.join ((groups.flatMap (·.commands)).map fun c => c.text ++ "\n")

end Plan
end SessionPlan
