import SessionPlan.Project

/-! How the panes of a window come to be. The first pane comes with the window; every other one is
split off an earlier pane. The multiplexer puts a new pane right after the one it was split from,
so the live order of the panes differs from the order of their declaration. -/
namespace SessionPlan

/-- One split: which declared pane it makes, out of which, and where that one is live then. -/
structure Split where
  pane : Nat
  source : Nat
  sourceTarget : Int
  direction : Option SplitDirection
  size : Option String
  deriving DecidableEq, Repr

structure Geometry where
  splits : List Split
  layout : Option String
  /-- Live index of each declared pane once every split has been made. -/
  finalIndices : List Int
  deriving DecidableEq, Repr

namespace Geometry

/-- The pane that a pane is split from: the one it names, else the one declared before it. -/
def sourceOf (position : Nat) (pane : Pane) : Int := pane.splitFrom.getD ((position : Int) - 1)

def splitPath (path : String) (position : Nat) : String :=
  (if path.isEmpty then "" else path ++ ".") ++ "panes[" ++ Text.ofNat position ++ "].split_from"

/-- The split of the pane at `position`, given the panes before it in live order, and the order
with the pane added. A layout arranges the panes later, so its splits are bare. -/
def splitOf (w : Window) (base : Int) (path : String) (order : List Nat) (position : Nat)
    (pane : Pane) : Except Failure (Split × List Nat) :=
  let source := sourceOf position pane
  if (position : Int) ≤ source then
    reject (.splitSourceMissing source w.index pane.index) (splitPath path position)
  else
    match order.findIdx? fun (declared : Nat) => (declared : Int) = source with
    | none => .error (.fault (.notListed source))
    | some live =>
      let split : Split := {
        pane := position
        source := source.toNat
        sourceTarget := base + live
        direction := if w.hasLayout then none else some (pane.split.getD .horizontal)
        size := if w.hasLayout then none else orNonempty pane.splitSize (some "50%") }
      .ok (split, order.insertIdx (live + 1) position)

def splitsFrom (w : Window) (base : Int) (path : String) (order : List Nat) (position : Nat) :
    List Pane → Except Failure (List Split × List Nat)
  | [] => .ok ([], order)
  | pane :: rest => do
    let (split, order) ← splitOf w base path order position pane
    let (splits, order) ← splitsFrom w base path order (position + 1) rest
    return (split :: splits, order)

/-- Live indices by declaration, for panes in the live order `order`. -/
def indices (base : Int) (order : List Nat) (panes : Nat) : List Int :=
  (List.range panes).map fun position => base + (order.idxOf position : Int)

/-- Works out the splits of a window. A pane may only be split from one declared before it. -/
def ofWindow (w : Window) (base : Int) (path : String) : Except Failure Geometry :=
  match w.panes with
  | [] => .error (.fault .indexMissing)
  | _ :: rest => do
    let (splits, order) ← splitsFrom w base path [0] 1 rest
    return ⟨splits, w.layout, indices base order w.panes.length⟩

end Geometry
end SessionPlan
