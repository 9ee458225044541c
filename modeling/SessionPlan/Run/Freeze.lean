import SessionPlan.Document.Format
import SessionPlan.Run.Compile
import SessionPlan.Snapshot.Freeze
import SessionPlan.Snapshot.Listing

/-! From a live session back to a project, and on to the text of its document. -/
namespace SessionPlan.Run
open SessionPlan.Log

/-- A window loses a name that cannot stand in a target. -/
def nameRecord (w : LiveWindow) : Record where
  level := .warning
  message := "Window name cannot be used as a target - dropping it"
  origin := some .windowName
  fields := [operation "freeze_snapshot", status "skip", ("window_index", .int w.index),
    ("window_name", Tree.optional .text w.name)]

def snapshotRecord (p : Project) : Record where
  level := .debug
  message := "Snapshot frozen"
  origin := some .snapshot
  fields := [operation "freeze_snapshot", status "success",
    ("session_name", Tree.optional .text p.sessionName),
    metrics [("windows", p.windows.length), ("panes", paneCount p)]]

def freezeRecords (snapshot : Snapshot) (p : Project) : List Record :=
  (snapshot.windows.filter (·.hasForbiddenName)).map nameRecord ++ [snapshotRecord p]

def freeze (snapshot : Snapshot) (shells : List String) : Noted Record Failure Project :=
  Noted.ofAnswer (freezeRecords snapshot) (snapshot.freeze shells)

/-- The texts among the members of a value that can be made a set. -/
def memberTexts : Tree → Except Failure (List String)
  | .list items | .tuple items | .set items =>
    if items.all Tree.isKey then .ok (items.filterMap Tree.text?) else .error (.fault .kindMismatch)
  | .mapping entries => .ok (entries.filterMap fun entry => entry.1.text?)
  | .text s => .ok (s.toList.map Char.toString)
  | .bytes _ => .ok []
  | _ => .error (.fault .kindMismatch)

/-- Freezes with the shells of the settings, which are looked at once the session is checked. -/
def freezeWith (snapshot : Snapshot) (shells : Tree) : Noted Record Failure Project := do
  Noted.lift snapshot.check
  freeze snapshot (← Noted.lift (memberTexts shells))

def freezeOperation : String := "freeze_project"

def frozenRecord (p : Project) : Record where
  level := .info
  message := "Session frozen"
  origin := some .freezing
  fields := [operation freezeOperation, status "success",
    ("session_name", Tree.optional .text p.sessionName), metrics [("windows", p.windows.length)]]

/-- The project of a live session. -/
def freezeProject (s : Surroundings) (given : Option Tree) (snapshot : Snapshot) : Run Project :=
  Run.correlated do
    let settings ← onIssue (abortRecords freezeOperation {}) (settings s given)
    let shells ← unguarded (Settings.setting settings "freeze" "shell_commands")
    let project ← onIssue (abortRecords freezeOperation {})
      ((freezeWith snapshot shells).mapError stopOf)
    Noted.note (frozenRecord project)
    return project

/-- The document text of a session out of a listing, in the format of the settings. -/
def freezeListing (s : Surroundings) (given : Option Tree) (text session : String) :
    Run String := do
  let settings ← settings s given
  let snapshot ← onIssue (fun i => [i.errorRecord]) (guarded (Snapshot.ofListing text session))
  let project ← freezeProject s (some settings) snapshot
  let format ← unguarded (Settings.setting settings "document" "format")
  unguarded (Document.dump s.home format project)

end SessionPlan.Run
