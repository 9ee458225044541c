import SessionPlan.Surroundings
import SessionPlan.Text.UpperCase

/-! Log records. A record carries named fields; four of them have a place of their own in the
entry that is written for the record, and the others make up its context. -/
namespace SessionPlan.Log

inductive Level where
  | trace | debug | info | success | warning | error | critical
  deriving DecidableEq, Repr

namespace Level

def all : List Level := [.trace, .debug, .info, .success, .warning, .error, .critical]

def name : Level → String
  | .trace => "TRACE"
  | .debug => "DEBUG"
  | .info => "INFO"
  | .success => "SUCCESS"
  | .warning => "WARNING"
  | .error => "ERROR"
  | .critical => "CRITICAL"

def severity : Level → Nat
  | .trace => 5
  | .debug => 10
  | .info => 20
  | .success => 25
  | .warning => 30
  | .error => 40
  | .critical => 50

def ofName? (name : String) : Option Level := all.find? (·.name == name)

def ofName (name : String) : Except Failure Level :=
  match ofName? name with
  | some level => .ok level
  | none => .error (.fault (.levelUnknown name))

/-- The level that a setting names, in any case. -/
def ofSetting : Tree → Except Failure Level
  | .text name => ofName (Text.upper name)
  | _ => .error (.fault .partMissing)

theorem ofName?_name (level : Level) : ofName? level.name = some level := by
  cases level <;> decide

end Level

/-- The part of the program that a record comes from. -/
inductive Origin where
  | compiling | aborting | freezing
  | normalizing | geometry | sequencing
  | errorReport | warningReport | summary
  | settingsFile | settings
  | windowName | snapshot
  deriving DecidableEq, Repr

namespace Origin

/-- Origins as the log spells them. -/
def component : Origin → String
  | .compiling => "tmux_layout.compiler.compile_project"
  | .aborting => "tmux_layout.compiler._failed"
  | .freezing => "tmux_layout.compiler.freeze_project"
  | .normalizing => "tmux_layout.normalizer.normalize_document"
  | .geometry => "tmux_layout.panes.resolve_window_geometry"
  | .sequencing => "tmux_layout.sequencer.sequence_project"
  | .errorReport => "tmux_layout.errors.add_error"
  | .warningReport => "tmux_layout.errors.add_warning"
  | .summary => "tmux_layout.errors.log_summary"
  | .settingsFile => "tmux_layout.config_loader.load_config_from_path"
  | .settings => "tmux_layout.config_loader.load_settings"
  | .windowName => "tmux_layout.freeze._window_name"
  | .snapshot => "tmux_layout.freeze.freeze_snapshot"

end Origin

/-- What ties records together: nothing, the run that they belong to, or an id from outside. -/
inductive Correlation where
  | none
  | run
  | given (id : Tree)

/-- An exception that a record carries; `raised` tells whether it was thrown before. -/
structure Caught where
  kind : String
  message : String
  raised : Bool
  deriving DecidableEq, Repr

structure Record where
  level : Level
  message : String
  origin : Option Origin := none
  fields : List (String × Tree) := []
  correlation : Correlation := .none
  caught : Option Caught := none

/-- A record as it is written. -/
structure Entry where
  component : Option String
  level : String
  message : String
  operation : Tree
  status : Tree
  correlation : Correlation
  context : List (String × Tree)
  metrics : Tree
  caught : Option Caught

namespace Record

def field? (r : Record) (name : String) : Option Tree := r.fields.lookup name

/-- Fields with a place of their own. -/
def placedFields : List String := ["operation", "status", "trace_id", "metrics"]

/-- An id among the fields goes before the record's own correlation, unless it says nothing. -/
def correlated (r : Record) : Correlation :=
  match r.field? "trace_id" with
  | some id => if id.isVoid then r.correlation else .given id
  | none => r.correlation

def entry (r : Record) : Entry where
  component := r.origin.map Origin.component
  level := Text.lowerAscii r.level.name
  message := r.message
  operation := (r.field? "operation").getD (.text "unknown")
  status := (r.field? "status").getD .null
  correlation := r.correlated
  context := r.fields.filter fun field => !placedFields.contains field.1
  metrics := (r.field? "metrics").getD (.mapping [])
  caught := r.caught

def reaches (level : Level) (r : Record) : Bool := level.severity ≤ r.level.severity

def inRun (r : Record) : Record := { r with correlation := .run }

end Record

/-- Counts and the like that a record measures. -/
def metrics (counts : List (String × Nat)) : String × Tree :=
  ("metrics", .mapping (counts.map fun (name, n) => Tree.field name (.int n)))

def operation (name : String) : String × Tree := ("operation", .text name)

def status (name : String) : String × Tree := ("status", .text name)

/-- Level of the records that reach the log file. -/
def fileLevel : Level := .debug

/-- The log file, in the directory for the state of programs. -/
def filePath (s : Surroundings) : String :=
  Path.shown (s.baseDirectory "XDG_STATE_HOME" "/.local/state" ++
    "/tmux-layout/log/tmux-layout.jsonl")

end SessionPlan.Log
