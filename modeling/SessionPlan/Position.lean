/-! Positions in a list. A negative one counts from the end. -/
namespace SessionPlan

/-- Where a position points in a list of that length; none if it is outside. -/
def position? (length : Nat) (index : Int) : Option Nat :=
  if index < 0 then
    if index.natAbs ≤ length then some (length - index.natAbs) else none
  else if index.toNat < length then some index.toNat else none

/-- The item at a position. -/
def itemAt? (items : List α) (index : Int) : Option α :=
  (position? items.length index).bind fun n => items[n]?

example : itemAt? [1, 2, 3] (-1) = some 3 := by decide
example : itemAt? [1, 2, 3] (-4) = none := by decide

end SessionPlan
