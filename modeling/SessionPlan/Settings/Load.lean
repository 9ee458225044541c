import SessionPlan.Run.Basic
import SessionPlan.Settings.Check
import SessionPlan.Settings.ErrorLine
import SessionPlan.Settings.Location
import SessionPlan.Toml.Reader

/-! Settings read from their file. Without a file the defaults hold; whatever the file says is
merged over them and checked. The environment has the last word. -/
namespace SessionPlan.Settings
open SessionPlan.Log

def pathField (path : String) : String × Tree := ("config_path", .text path)

/-- A record about the settings file. -/
def fileRecord (level : Level) (message statusName : String) (fields : List (String × Tree)) :
    Record where
  level := level
  message := message
  origin := some .settingsFile
  fields := [operation "load_config_from_path", status statusName] ++ fields

def missingIssue (path : String) : Issue :=
  ⟨.fileNotFound, "Config file not found: " ++ path, [pathField path]⟩

def deniedIssue (path : String) : Issue :=
  ⟨.denied, "Config file is not readable: " ++ path, [pathField path]⟩

def numberTree : Option Nat → Tree := Tree.optional fun n => .int n

def syntaxRecord (path : String) (e : ErrorLine) : Record :=
  fileRecord .error "Invalid TOML syntax in configuration file" "failed"
    [("file", .text path), ("line_number", numberTree e.number),
      ("line_content", Tree.optional .text e.content), ("error", .text e.message)]

def syntaxIssue (path : String) (e : ErrorLine) : Issue :=
  ⟨.shape, e.message, [pathField path, ("line_number", numberTree e.number)]⟩

/-- The tables of a settings text found at `path`. -/
def tables (s : Surroundings) (path text : String) : Run Tree :=
  match Toml.parse text with
  | .ok table => return .mapping table
  | .error (.overlong digits) => Run.unguarded (.error (.fault (.unreadable digits)))
  | .error (.message message) => do
    let e ← Run.unguarded (errorLine s path message)
    Noted.note (syntaxRecord path e)
    Run.reported (syntaxIssue path e)

/-- What the file at `path` says. -/
def fileTables (s : Surroundings) (path : String) : Run Tree :=
  match s.read path with
  | .ok bytes => do
    let text ← Run.unguarded ((Surroundings.decode bytes).mapError .fault)
    tables s path text
  | .error .denied => do
    Noted.note (fileRecord .error "Config file is not readable" "failed"
      [pathField path, ("error", .text ("[Errno 13] Permission denied: " ++ Text.quoted path))])
    Run.reported (deniedIssue path)
  | .error .missing => Run.reported (missingIssue path)
  | .error (.fault f) => Run.unguarded (.error (.fault f))

/-- Settings from the file at `path`, merged over the defaults and checked. -/
def loadFrom (s : Surroundings) (path : String) : Run Tree := do
  Noted.note (fileRecord .debug "Loading config from path" "started" [pathField path])
  if !(← Run.unguarded (s.isPresent path)) then
    Noted.note (fileRecord .error "Config file not found" "failed" [pathField path])
    Run.reported (missingIssue path)
  else
    let user ← fileTables s path
    let merged ← Run.unguarded (merge defaults user)
    Noted.note (fileRecord .debug "Config loaded successfully" "success" [pathField path])
    let result ← Run.unguarded (check path merged)
    Run.checked result

def defaultRecord (path : String) : Record where
  level := .debug
  message := "Settings file does not exist, using defaults"
  origin := some .settings
  fields := [operation "load_settings", status "default", ("file", .text path)]

/-- The settings in force. -/
def load (s : Surroundings) (environ : List (String × String)) : Run Tree := do
  let path ← Run.unguarded (location s)
  if ← Run.unguarded (s.isPresent path) then
    let settings ← loadFrom s path
    Run.unguarded (withEnvironment environ settings)
  else
    Noted.note (defaultRecord path)
    Run.unguarded (withEnvironment environ defaults)

end SessionPlan.Settings
