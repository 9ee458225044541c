import SessionPlan.Command
import Mathlib.Data.List.InsertIdx
import Mathlib.Logic.Function.Basic

/-! A multiplexer as the commands of a plan see it: one session of numbered tabs, each with its
terminals in live order. A command that names a tab or a terminal fails if there is none of that
number, and a new tab fails if its number is taken. A command comes in as a line of text, which the
multiplexer reads by its own rules. -/
namespace SessionPlan.Multiplexer

/-- What is typed: a line with its return key, or the key that clears the screen. -/
inductive Stroke where
  | line (text : String)
  | clear
  deriving DecidableEq, Repr

/-- A terminal remembers how it was made: as which one of its tab, counted from 0, and out of which
one, if it was split off. -/
structure Terminal where
  serial : Nat
  source : Option Nat := none
  direction : Option SplitDirection := none
  size : Option String := none
  directory : Option String
  title : Option String := none
  strokes : List Stroke := []
  deriving DecidableEq, Repr

/-- Terminals are numbered from the tab's own base in live order. The active one is kept by its
serial, which no later split changes. -/
structure Tab where
  index : Int
  name : Option String
  base : Int
  layout : Option String := none
  terminals : List Terminal
  active : Nat := 0
  deriving DecidableEq, Repr

structure Session where
  name : String
  base : Int
  tabs : List Tab
  current : Int
  deriving DecidableEq, Repr

/-- The session, once there is one, and the shell commands that have been run. -/
structure Server where
  session : Option Session := none
  ran : List String := []
  deriving DecidableEq, Repr

/-- What a server starts out with and no plan can know: where the first tab of a session goes, and
from where it numbers tabs and terminals until told otherwise. -/
structure Config where
  first : Int
  tabBase : Int
  terminalBase : Int

namespace Tab

/-- Where the terminal of that number stands. -/
def place? (t : Tab) (number : Int) : Option Nat :=
  if t.base ≤ number ∧ number < t.base + t.terminals.length then some (number - t.base).toNat
  else none

def alter (t : Tab) (number : Int) (f : Terminal → Terminal) : Option Tab :=
  (t.place? number).map fun k => { t with terminals := t.terminals.modify k f }

/-- The new terminal stands right after the one it is split from, and becomes active. -/
def split (t : Tab) (number : Int) (direction : Option SplitDirection)
    (size directory : Option String) : Option Tab := do
  let k ← t.place? number
  let source ← t.terminals[k]?
  let serial := t.terminals.length
  return { t with
    terminals := t.terminals.insertIdx (k + 1)
      { serial, source := some source.serial, direction, size, directory }
    active := serial }

def activate (t : Tab) (number : Int) : Option Tab := do
  let k ← t.place? number
  let terminal ← t.terminals[k]?
  return { t with active := terminal.serial }

end Tab

def alterTab (index : Int) (f : Tab → Option Tab) : List Tab → Option (List Tab)
  | [] => none
  | t :: rest =>
    if t.index = index then (f t).map (· :: rest) else (alterTab index f rest).map (t :: ·)

namespace Session

/-- The number that a tab gets when all are numbered anew: they keep their order. -/
def rank (x : Session) (index : Int) : Int :=
  x.base + (x.tabs.countP fun t => decide (t.index < index) : Nat)

def renumber (x : Session) : Session where
  name := x.name
  base := x.base
  tabs := x.tabs.map fun t => { t with index := x.rank t.index }
  current := x.rank x.current

def add (x : Session) (t : Tab) : Option Session :=
  if x.tabs.any (·.index = t.index) then none
  else some { x with tabs := x.tabs ++ [t], current := t.index }

theorem add_fresh {x : Session} {t : Tab} (fresh : ∀ u ∈ x.tabs, u.index ≠ t.index) :
    x.add t = some { x with tabs := x.tabs ++ [t], current := t.index } := by
  rw [add, if_neg]
  simpa using fresh

end Session

namespace Server

def within (s : Server) (name : String) (f : Session → Option Session) : Option Server := do
  let x ← s.session
  if x.name = name then return { s with session := some (← f x) } else none

def inTab (s : Server) (target : WindowTarget) (f : Tab → Option Tab) : Option Server :=
  s.within target.session fun x =>
    (alterTab target.window f x.tabs).map fun tabs => { x with tabs }

def inTerminal (s : Server) (target : PaneTarget) (f : Terminal → Terminal) : Option Server :=
  s.inTab target.window fun t => t.alter target.pane f

/-- A tab becomes current if it is there. -/
def choose (s : Server) (target : WindowTarget) : Option Server :=
  s.within target.session fun x =>
    if x.tabs.any (·.index = target.window) then some { x with current := target.window } else none

theorem choose_of_mem {x : Session} {ran : List String} {target : WindowTarget}
    (name : x.name = target.session) (there : ∃ t ∈ x.tabs, t.index = target.window) :
    (⟨some x, ran⟩ : Server).choose target =
      some ⟨some { x with current := target.window }, ran⟩ := by
  have found : (x.tabs.any (·.index = target.window)) = true := by simpa using there
  simp only [choose, within, Option.bind_eq_bind, Option.bind_some, if_pos name, if_pos found]
  rfl

end Server

def newTab (config : Config) (index : Int) (name directory : Option String) : Tab where
  index := index
  name := name
  base := config.terminalBase
  terminals := [{ serial := 0, directory := directory }]

/-- One command. There is no next state where the command fails. -/
def step (config : Config) (s : Server) : Command → Option Server
  | .newSession name window directory =>
    match s.session with
    | some _ => none
    | none => some { s with session := some {
        name := name
        base := config.tabBase
        tabs := [newTab config config.first window directory]
        current := config.first } }
  | .setBaseIndex name index => s.within name fun x => some { x with base := index }
  | .renumberWindows name => s.within name fun x => some x.renumber
  | .newWindow target name directory =>
    s.within target.session fun x => x.add (newTab config target.window name directory)
  | .setPaneBaseIndex target index => s.inTab target fun t => some { t with base := index }
  | .splitWindow target direction size directory =>
    s.inTab target.window fun t => t.split target.pane direction size directory
  | .titlePane target title => s.inTerminal target fun t => { t with title := some title }
  | .selectLayout target layout => s.inTab target fun t => some { t with layout := some layout }
  | .runShell command => some { s with ran := s.ran ++ [command] }
  | .typeLine target line =>
    s.inTerminal target fun t => { t with strokes := t.strokes ++ [.line line] }
  | .clearScreen target =>
    s.inTerminal target fun t => { t with strokes := t.strokes ++ [.clear] }
  | .selectWindow target => s.choose target
  | .selectPane target => s.inTab target.window fun t => t.activate target.pane
  | .attach name => s.within name some

def run (config : Config) : Server → List Command → Option Server
  | s, [] => some s
  | s, c :: rest => (step config s c).bind fun next => run config next rest

/-! ### What is read in a line -/

def natural? (word : List Char) : Option Nat :=
  if word.isEmpty || !word.all Char.isDigit then none else some (Nat.ofDigitChars 10 word 0)

/-- A number in decimal digits, with its sign. -/
def number? : List Char → Option Int
  | '-' :: digits => (natural? digits).map fun n => -(n : Int)
  | digits => (natural? digits).map Int.ofNat

/-- A tab is named by its session and its number. -/
def windowTarget? (word : List Char) : Option WindowTarget :=
  match word.splitOn ':' with
  | [session, index] => (number? index).map fun index => ⟨String.ofList session, index⟩
  | _ => none

/-- A terminal is named by its tab and its number there. -/
def paneTarget? (word : List Char) : Option PaneTarget :=
  match word.splitOn '.' with
  | [window, live] => do return ⟨← windowTarget? window, ← number? live⟩
  | _ => none

/-- The value of a flag, if the flag comes next, and the words that remain. -/
def flagValue (flag : String) : List String → Option String × List String
  | word :: value :: rest =>
    if word = flag then (some value, rest) else (none, word :: value :: rest)
  | rest => (none, rest)

def direction : List String → Option SplitDirection × List String
  | "-h" :: rest => (some .horizontal, rest)
  | "-v" :: rest => (some .vertical, rest)
  | rest => (none, rest)

/-- The command that is given by its words. In what a shell is to run, two hashes stand for one. -/
def command? : List String → Option Command
  | "new-session" :: "-d" :: "-s" :: session :: options =>
    let (name, options) := flagValue "-n" options
    let (directory, options) := flagValue "-c" options
    if options.isEmpty then some (.newSession session name directory) else none
  | ["set-option", "-t", session, "base-index", index] =>
    (number? index.toList).map (.setBaseIndex session)
  | ["move-window", "-r", "-t", session] => some (.renumberWindows session)
  | "new-window" :: "-t" :: target :: options =>
    let (name, options) := flagValue "-n" options
    let (directory, options) := flagValue "-c" options
    if options.isEmpty then
      (windowTarget? target.toList).map fun target => .newWindow target name directory
    else none
  | ["set-option", "-w", "-t", target, "pane-base-index", index] => do
    return .setPaneBaseIndex (← windowTarget? target.toList) (← number? index.toList)
  | "split-window" :: "-t" :: target :: options =>
    let (direction, options) := direction options
    let (size, options) := flagValue "-l" options
    let (directory, options) := flagValue "-c" options
    if options.isEmpty then
      (paneTarget? target.toList).map fun target => .splitWindow target direction size directory
    else none
  | ["select-pane", "-t", target, "-T", title] =>
    (paneTarget? target.toList).map (.titlePane · title)
  | ["select-layout", "-t", target, layout] =>
    (windowTarget? target.toList).map (.selectLayout · layout)
  | ["run-shell", command] => some (.runShell (Text.replace command "##" "#"))
  | ["send-keys", "-t", target, line, "C-m"] =>
    (paneTarget? target.toList).map (.typeLine · line)
  | ["send-keys", "-t", target, "C-l"] => (paneTarget? target.toList).map .clearScreen
  | ["select-window", "-t", target] => (windowTarget? target.toList).map .selectWindow
  | ["select-pane", "-t", target] => (paneTarget? target.toList).map .selectPane
  | ["attach-session", "-t", session] => some (.attach session)
  | _ => none

def heard? (line : String) : Option Command :=
  match Shell.split line with
  | .ok words => command? words
  | .error _ => none

/-- One line after the other. There is no end where a line is no command or a command fails. -/
def runLines (config : Config) : Server → List String → Option Server
  | s, [] => some s
  | s, line :: rest => do
    let c ← heard? line
    let next ← step config s c
    runLines config next rest

theorem runLines_text {config : Config} {s : Server} {commands : List Command}
    (heard : ∀ c ∈ commands, heard? c.text = some c) :
    runLines config s (commands.map Command.text) = run config s commands := by
  induction commands generalizing s with
  | nil => rfl
  | cons c rest ih =>
    obtain ⟨here, later⟩ := List.forall_mem_cons.mp heard
    simp only [List.map_cons, runLines, run, here, Option.bind_eq_bind, Option.bind_some]
    congr 1
    funext next
    exact ih later

/-! ### Several commands -/

theorem run_append (config : Config) (s : Server) (first later : List Command) :
    run config s (first ++ later) =
      (run config s first).bind fun next => run config next later := by
  induction first generalizing s with
  | nil => rfl
  | cons c rest ih =>
    simp only [List.cons_append, run, Option.bind_assoc]
    congr 1
    funext next
    exact ih next

theorem run_single (config : Config) (s : Server) (c : Command) :
    run config s [c] = step config s c := by
  cases h : step config s c <;> simp [run, h]

/-- Hooks leave no trace but that they were run. -/
theorem run_shell (config : Config) (s : Server) (hooks : List String) :
    run config s (hooks.map .runShell) = some { s with ran := s.ran ++ hooks } := by
  induction hooks generalizing s with
  | nil => simp [run]
  | cons hook rest ih => simp [run, step, ih]

end SessionPlan.Multiplexer
