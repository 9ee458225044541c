/-! Membership in a list of closed ranges of numbers. -/
namespace SessionPlan.Text

def inRanges (ranges : List (Nat × Nat)) (n : Nat) : Bool :=
  ranges.any fun (first, last) => first ≤ n && n ≤ last

end SessionPlan.Text
