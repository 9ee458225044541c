/-! Runs of letters that change case by the same distance. -/
namespace SessionPlan.Text

/-- Code points `first`, `first + step`, … `last` whose other case lies `distance` away. -/
structure CaseRun where
  first : Nat
  last : Nat
  step : Nat
  distance : Int

namespace CaseRun

def has (run : CaseRun) (n : Nat) : Bool :=
  run.first ≤ n && n ≤ run.last && (n - run.first) % run.step == 0

/-- A character that is in no run stays. -/
def moved (runs : List CaseRun) (c : Char) : Char :=
  match runs.find? (·.has c.toNat) with
  | some run => Char.ofNat (c.toNat + run.distance).toNat
  | none => c

end CaseRun
end SessionPlan.Text
