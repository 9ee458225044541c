import SessionPlan.Report

/-! Runs: computations that keep a log and end with an answer, with an issue for the caller, or
with a failure that nothing handles. -/
namespace SessionPlan
open SessionPlan.Log

/-- How a run ends without an answer. -/
inductive Stop where
  | issue (issue : Issue)
  | failure (failure : Failure)

abbrev Run (α : Type) := Noted Record Stop α

namespace Run

def reported (i : Issue) : Run α := Noted.fail (.issue i)

/-- Failures go past the caller. -/
def unguarded (r : Except Failure α) : Run α := Noted.lift (r.mapError .failure)

/-- Problems become issues; only faults go past the caller. -/
def stopOf : Failure → Stop
  | .problem p => .issue p.issue
  | .fault f => .failure (.fault f)

def guarded (r : Except Failure α) : Run α := Noted.lift (r.mapError stopOf)

/-- Ends with the issue of a check, if it has one. -/
def checked (r : Except Issue α) : Run α := Noted.lift (r.mapError .issue)

/-- Notes that are left only where the run ends with an issue. -/
def onIssue (notes : Issue → List Record) (x : Run α) : Run α :=
  match x.result with
  | .error (.issue i) => ⟨x.notes ++ notes i, x.result⟩
  | _ => x

/-- All records of the run belong together. -/
def correlated (x : Run α) : Run α := x.mapNotes Record.inRun

end Run
end SessionPlan
