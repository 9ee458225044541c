import SessionPlan.Log
import SessionPlan.Noted

/-! Reports collect issues. Every issue that is added leaves a log record. -/
namespace SessionPlan
open SessionPlan.Log

structure Report where
  errors : List Issue := []
  warnings : List Issue := []

namespace Issue

/-- Fields that the record of every issue has; the details of an issue must not bear their
names. -/
def recordFields (i : Issue) (statusName : String) : List (String × Tree) :=
  [operation "error_report", status statusName, ("error_type", .text i.kind.name)]

def errorRecord (i : Issue) : Record where
  level := .error
  message := i.message
  origin := some .errorReport
  fields := i.recordFields "error" ++ i.context

def warningRecord (i : Issue) : Record where
  level := .warning
  message := i.message
  origin := some .warningReport
  fields := i.recordFields "warning" ++ i.context

/-- The record of an issue, if its details can stand beside the record's own fields. -/
def noteAs (i : Issue) (record : Record) : Noted Record Failure Unit :=
  if i.context.any fun detail => ["operation", "status", "error_type"].contains detail.1 then
    Noted.fail (.fault .kindMismatch)
  else Noted.note record

end Issue

namespace Report

def addError (r : Report) (i : Issue) : Noted Record Failure Report := do
  i.noteAs i.errorRecord
  return { r with errors := r.errors ++ [i] }

def addWarning (r : Report) (i : Issue) : Noted Record Failure Report := do
  i.noteAs i.warningRecord
  return { r with warnings := r.warnings ++ [i] }

/-- Adds the issue of a result, if it has one; the answer is whether it has none. -/
def collect (r : Report) : Except Issue α → Noted Record Failure (Report × Bool)
  | .ok _ => return (r, true)
  | .error i => do return (← r.addError i, false)

def hasErrors (r : Report) : Bool := !r.errors.isEmpty

def summaryRecord (r : Report) (operationName : String) : Record where
  level := .info
  message := "Operation complete"
  origin := some .summary
  fields := [operation operationName, status (if r.hasErrors then "failed" else "complete"),
    metrics [("total_errors", r.errors.length), ("total_warnings", r.warnings.length)]]

end Report
end SessionPlan
