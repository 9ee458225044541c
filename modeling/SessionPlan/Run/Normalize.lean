import SessionPlan.Document.Build
import SessionPlan.Run.Basic

/-! Building a project with a log of it. -/
namespace SessionPlan.Run
open SessionPlan.Log

def normalizing (message statusName : String) (fields : List (String × Tree)) : Record where
  level := .debug
  message := message
  origin := some .normalizing
  fields := [operation "normalize_document", status statusName] ++ fields

def normalizingRecord (wishes : Document.Wishes) : Record :=
  normalizing "Normalizing document" "started"
    [("project_name", Tree.optional .text wishes.name)]

def paneCount (p : Project) : Nat := (p.windows.flatMap (·.panes)).length

def normalizedRecord (p : Project) : Record :=
  normalizing "Document normalized" "success"
    [("session_name", Tree.optional .text p.sessionName),
      metrics [("windows", p.windows.length), ("panes", paneCount p)]]

/-- What a build reports. -/
def warnings (b : Document.Build α) : List Issue := b.notes.map Conflict.issue

/-- Records of the conflicts that a build found. -/
def warningRecords (b : Document.Build α) : List Record := (warnings b).map Issue.warningRecord

/-- A build with its log: how it began, the conflicts, and the end if it got there. -/
def normalize (wishes : Document.Wishes) (b : Document.Build Project) :
    Noted Record Failure Project where
  notes := normalizingRecord wishes :: warningRecords b ++
    match b.result with
    | .ok p => [normalizedRecord p]
    | .error _ => []
  result := b.result

end SessionPlan.Run
