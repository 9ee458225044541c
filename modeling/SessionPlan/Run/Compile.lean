import SessionPlan.Run.Normalize
import SessionPlan.Run.Plan
import SessionPlan.Settings.Load

/-! From a document to the plan of its session: variables are expanded, the project is built, and
its commands are put in order. A document comes as a tree, as text or in a file. -/
namespace SessionPlan.Run
open SessionPlan.Log

/-- The settings given, else those in force. -/
def settings (s : Surroundings) (given : Option Tree) : Run Tree :=
  match given with
  | some settings => return settings
  | none => Settings.load s s.environ

def abortedRecord (operationName : String) (i : Issue) : Record where
  level := .error
  message := "Compilation aborted"
  origin := some .aborting
  fields := [operation operationName, status "failed", ("error_type", .text i.kind.name)]

/-- Records of a run that ends with an issue, on top of what its report holds. -/
def abortRecords (operationName : String) (report : Report) (i : Issue) : List Record :=
  [i.errorRecord, abortedRecord operationName i,
    Report.summaryRecord { report with errors := report.errors ++ [i] } operationName]

def compileOperation : String := "compile_project"

def compiling (message statusName : String) (fields : List (String × Tree)) : Record where
  level := .info
  message := message
  origin := some .compiling
  fields := [operation compileOperation, status statusName] ++ fields

def compilingRecord (wishes : Document.Wishes) : Record :=
  compiling "Compiling project" "started" [("project_name", Tree.optional .text wishes.name)]

def compiledRecord (plan : Plan) : Record :=
  compiling "Project compiled" "success"
    [("session_name", .text plan.sessionName), metrics [("groups", plan.groups.length)]]

/-- The multiplexer that settings name for a project. What is no text cannot be called, but is
found out only after the session's name. -/
def multiplexer (settings : Tree) (p : Project) : Except Failure (Option String) := do
  match ← Settings.command settings with
  | .text name => return some name
  | value =>
    if value.isVoid then return none
    discard p.session
    throw (.fault .partMissing)

/-- The plan of a project that was built, with settings. -/
def planOf (settings : Tree) (project : Noted Record Failure Project) :
    Noted Record Failure Plan := do
  let p ← project
  plan p (← Noted.lift (multiplexer settings p))

/-- Plans the session of a document. -/
def compile (s : Surroundings) (given : Option Tree) (values : Variables)
    (wishes : Document.Wishes) (document : Tree) : Run Plan := Run.correlated do
  Noted.note (compilingRecord wishes)
  let settings ← onIssue (abortRecords compileOperation {}) (settings s given)
  let built := Document.normalize s.home values wishes document
  let report : Report := { warnings := warnings built }
  let plan ← onIssue (abortRecords compileOperation report)
    ((planOf settings (normalize wishes built)).mapError stopOf)
  Noted.note (compiledRecord plan)
  Noted.note (report.summaryRecord compileOperation)
  return plan

/-- Plans the session of a document text in the format of that name. -/
def compileText (s : Surroundings) (given : Option Tree) (values : Variables)
    (wishes : Document.Wishes) (formatName : Tree) (text : String) : Run Plan := do
  let document ← onIssue (fun i => [i.errorRecord])
    (guarded do Document.parse (← Document.format formatName) text)
  compile s given values wishes document

def projectMissing (path : String) : Issue :=
  ⟨.fileNotFound, "Project file not found: " ++ path, [("project_path", .text path)]⟩

def projectDenied (path : String) : Issue :=
  ⟨.denied, "Project file is not readable: " ++ path, [("project_path", .text path)]⟩

/-- The text of a project file. -/
def projectText (s : Surroundings) (path : String) : Run String :=
  match s.read path with
  | .ok bytes => do
    return Surroundings.plainText (← unguarded ((Surroundings.decode bytes).mapError .fault))
  | .error .missing => reported (projectMissing path)
  | .error .denied => reported (projectDenied path)
  | .error (.fault f) => unguarded (.error (.fault f))

/-- Plans the session of a project file. Its name without ending is the session's name, unless
the caller gives one; its ending tells the format. -/
def compileFile (s : Surroundings) (given : Option Tree) (values : Variables)
    (name : Option (Option String)) (attach : Option Bool) (path : String) : Run Plan := do
  let text ← onIssue (fun i => [i.errorRecord]) (projectText s (Path.shown path))
  let format := (Document.Format.ofPath? path).getD .yaml
  compileText s given values ⟨name.getD (some (Path.stem path)), attach⟩ (.text format.name) text

end SessionPlan.Run
