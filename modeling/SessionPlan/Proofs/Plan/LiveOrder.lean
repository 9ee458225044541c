import SessionPlan.Proofs.Failure
import SessionPlan.Geometry
import Mathlib.Data.List.InsertIdx

/-! The live order of the panes of a window. It follows from the sources alone: whatever the split
looks like, the new pane stands right after its source. -/
namespace SessionPlan
open SessionPlan.Geometry (sourceOf splitOf splitsFrom)

namespace Window

/-- The pane that pane `j` is split from: the one it names, else the one declared before it. -/
def source (w : Window) (j : Nat) : Nat :=
  match (w.panes[j]?).bind Pane.splitFrom with
  | some source => source.toNat
  | none => j - 1

/-- Declared panes in live order, after `n` splits. -/
def liveOrder (w : Window) : Nat → List Nat
  | 0 => [0]
  | n + 1 => (w.liveOrder n).insertIdx ((w.liveOrder n).idxOf (w.source (n + 1)) + 1) (n + 1)

/-- Where pane `j` is live among the panes of the window, counted from 0, once all of them are
there. -/
def position (w : Window) (j : Nat) : Nat := (w.liveOrder (w.panes.length - 1)).idxOf j

/-- The first `n` splits are each of an earlier pane. -/
def SourcedTo (w : Window) (n : Nat) : Prop := ∀ j, 0 < j → j ≤ n → w.source j < j

/-- Every pane but the first is split from an earlier one. -/
def Sourced (w : Window) : Prop := w.SourcedTo (w.panes.length - 1)

theorem SourcedTo.mono {w : Window} {m n : Nat} (sourced : w.SourcedTo n) (h : m ≤ n) :
    w.SourcedTo m := fun j pos le => sourced j pos (Nat.le_trans le h)

theorem SourcedTo.succ {w : Window} {n : Nat} (sourced : w.SourcedTo n)
    (earlier : w.source (n + 1) < n + 1) : w.SourcedTo (n + 1) := by
  intro j pos le
  rcases Nat.lt_or_ge n j with last | before
  · obtain rfl : j = n + 1 := by omega
    exact earlier
  · exact sourced j pos before

theorem liveOrder_perm {w : Window} {n : Nat} (sourced : w.SourcedTo n) :
    (w.liveOrder n).Perm (List.range (n + 1)) := by
  induction n with
  | zero => exact .refl _
  | succ n ih =>
    have perm := ih (sourced.mono (Nat.le_succ n))
    have live : w.source (n + 1) ∈ w.liveOrder n :=
      perm.mem_iff.mpr (List.mem_range.mpr (sourced (n + 1) n.succ_pos (Nat.le_refl _)))
    have inside : (w.liveOrder n).idxOf (w.source (n + 1)) + 1 ≤ (w.liveOrder n).length :=
      List.idxOf_lt_length_of_mem live
    calc (w.liveOrder (n + 1)).Perm ((n + 1) :: w.liveOrder n) := List.perm_insertIdx _ _ inside
      _ |>.Perm ((n + 1) :: List.range (n + 1)) := perm.cons _
      _ |>.Perm (List.range (n + 2)) := by
        rw [List.range_succ (n := n + 1)]
        exact (List.perm_append_singleton _ _).symm

theorem mem_liveOrder {w : Window} {n j : Nat} (sourced : w.SourcedTo n) :
    j ∈ w.liveOrder n ↔ j ≤ n := by
  rw [(liveOrder_perm sourced).mem_iff, List.mem_range, Nat.lt_succ_iff]

theorem length_liveOrder {w : Window} {n : Nat} (sourced : w.SourcedTo n) :
    (w.liveOrder n).length = n + 1 := by
  rw [(liveOrder_perm sourced).length_eq, List.length_range]

theorem nodup_liveOrder {w : Window} {n : Nat} (sourced : w.SourcedTo n) :
    (w.liveOrder n).Nodup :=
  (liveOrder_perm sourced).nodup_iff.mpr List.nodup_range

/-- Every pane is live somewhere among the panes, -/
theorem position_lt {w : Window} (sourced : w.Sourced) {j : Nat} (declared : j < w.panes.length) :
    w.position j < w.panes.length := by
  have found := List.idxOf_lt_length_of_mem ((mem_liveOrder sourced).mpr (by omega : j ≤ _))
  rw [length_liveOrder sourced] at found
  rw [position]
  omega

/-- and at every place some pane is. -/
theorem exists_position {w : Window} (sourced : w.Sourced) {k : Nat}
    (inside : k < w.panes.length) : ∃ j < w.panes.length, w.position j = k := by
  have bound : k < (w.liveOrder (w.panes.length - 1)).length := by
    rw [length_liveOrder sourced]
    omega
  have known := (mem_liveOrder sourced).mp (List.getElem_mem bound)
  exact ⟨_, by omega, (nodup_liveOrder sourced).idxOf_getElem k bound⟩

/-! ### Splits -/

/-- No pane names a source below 0. -/
def Counted (w : Window) : Prop := ∀ pane ∈ w.panes, ∀ n ∈ pane.splitFrom, 0 ≤ n

/-- A layout arranges the panes later, so its splits have no direction. -/
def splitDirection (w : Window) (pane : Pane) : Option SplitDirection :=
  if w.hasLayout then none else some (pane.split.getD .horizontal)

def splitSize (w : Window) (pane : Pane) : Option String :=
  if w.hasLayout then none else orNonempty pane.splitSize (some "50%")

/-- Where the source of pane `j` is live, among the panes before it, when it is split. -/
def splitPosition (w : Window) (j : Nat) : Nat := (w.liveOrder (j - 1)).idxOf (w.source j)

theorem splitPosition_lt {w : Window} {j : Nat} (sourced : w.SourcedTo j) (further : 0 < j) :
    w.splitPosition j < j := by
  have before := sourced j further (Nat.le_refl j)
  have earlier : w.SourcedTo (j - 1) := sourced.mono (Nat.sub_le j 1)
  have found := List.idxOf_lt_length_of_mem ((mem_liveOrder earlier).mpr (by omega : w.source j ≤ _))
  rw [length_liveOrder earlier] at found
  rw [splitPosition]
  omega

def splitAt (w : Window) (base : Int) (pane : Pane) (j : Nat) : Split where
  pane := j
  source := w.source j
  sourceTarget := base + w.splitPosition j
  direction := w.splitDirection pane
  size := w.splitSize pane

def geometry (w : Window) (base : Int) : Geometry where
  splits := (w.panes.tail.zipIdx 1).map fun (pane, j) => w.splitAt base pane j
  layout := w.layout
  finalIndices := (List.range w.panes.length).map fun j => base + w.position j

theorem sourceOf_eq {w : Window} {n : Nat} {pane : Pane} (counted : w.Counted)
    (declared : w.panes[n + 1]? = some pane) : sourceOf (n + 1) pane = w.source (n + 1) := by
  rw [sourceOf, source, declared, Option.bind_some]
  cases named : pane.splitFrom with
  | none => simp
  | some k =>
    have nonneg := counted pane (List.mem_of_getElem? declared) k named
    exact (Int.toNat_of_nonneg nonneg).symm

theorem findIdx?_declared {order : List Nat} {source : Nat} (live : source ∈ order) :
    (order.findIdx? fun (declared : Nat) => (declared : Int) = (source : Int)) =
      some (order.idxOf source) := by
  have same : (fun (declared : Nat) => decide ((declared : Int) = (source : Int))) =
      (· == source) := by
    funext declared
    simp only [Bool.beq_eq_decide_eq, decide_eq_decide]
    omega
  rw [same, List.findIdx?_eq_some_iff_findIdx_eq]
  exact ⟨List.idxOf_lt_length_of_mem live, rfl⟩

theorem splitOf_eq_ok {w : Window} {base : Int} {path : String} {n : Nat} {pane : Pane}
    {r : Split × List Nat} (counted : w.Counted) (sourced : w.SourcedTo n)
    (declared : w.panes[n + 1]? = some pane) :
    splitOf w base path (w.liveOrder n) (n + 1) pane = .ok r ↔
      w.source (n + 1) < n + 1 ∧ r = (w.splitAt base pane (n + 1), w.liveOrder (n + 1)) := by
  have source := sourceOf_eq counted declared
  by_cases earlier : w.source (n + 1) < n + 1
  · have live : w.source (n + 1) ∈ w.liveOrder n := (mem_liveOrder sourced).mpr (by omega)
    have bound : ¬((n + 1 : Nat) : Int) ≤ (w.source (n + 1) : Int) := by omega
    rw [splitOf, source]
    simp only [if_neg bound, findIdx?_declared live, earlier, true_and]
    exact ⟨fun h => (Except.ok.inj h).symm, fun h => congrArg Except.ok h.symm⟩
  · have bound : ((n + 1 : Nat) : Int) ≤ (w.source (n + 1) : Int) := by omega
    rw [splitOf, source]
    simp only [if_pos bound, earlier, false_and, iff_false]
    exact reject_ne_ok _ _ _

/-- Splitting the panes that remain goes well if each has an earlier source, and ends with the live
order of all. -/
theorem splitsFrom_eq_ok {w : Window} {base : Int} {path : String} (counted : w.Counted)
    {n : Nat} {rest : List Pane} {r : List Split × List Nat} (sourced : w.SourcedTo n)
    (remain : w.panes.drop (n + 1) = rest) :
    splitsFrom w base path (w.liveOrder n) (n + 1) rest = .ok r ↔
      w.SourcedTo (n + rest.length) ∧
        r = ((rest.zipIdx (n + 1)).map fun (pane, j) => w.splitAt base pane j,
          w.liveOrder (n + rest.length)) := by
  induction rest generalizing n r with
  | nil => simp [splitsFrom, sourced, eq_comm]
  | cons pane rest ih =>
    have declared : w.panes[n + 1]? = some pane := by
      rw [← List.head?_drop, remain]; rfl
    have later : w.panes.drop (n + 1 + 1) = rest := by
      rw [← List.tail_drop, remain]; rfl
    have total : n + (pane :: rest).length = n + 1 + rest.length := by
      rw [List.length_cons]; omega
    rw [total, splitsFrom]
    constructor
    · intro h
      obtain ⟨first, one, h⟩ := bind_eq_ok.mp h
      obtain ⟨earlier, rfl⟩ := (splitOf_eq_ok counted sourced declared).mp one
      obtain ⟨others, many, eq⟩ := bind_eq_ok.mp h
      obtain ⟨all, rfl⟩ := (ih (sourced.succ earlier) later).mp many
      cases eq
      exact ⟨all, rfl⟩
    · rintro ⟨all, rfl⟩
      have next := all.mono (Nat.le_add_right (n + 1) rest.length)
      have one : splitOf w base path (w.liveOrder n) (n + 1) pane = .ok _ :=
        (splitOf_eq_ok counted sourced declared).mpr
          ⟨next (n + 1) n.succ_pos (Nat.le_refl _), rfl⟩
      have many := (ih next later).mpr ⟨all, rfl⟩
      rw [one, ok_bind]
      simp only [many, ok_bind]
      rfl

/-- The geometry of a window, where it has one. -/
theorem ofWindow_eq_ok {w : Window} {base : Int} {path : String} {g : Geometry}
    (counted : w.Counted) :
    Geometry.ofWindow w base path = .ok g ↔ w.panes ≠ [] ∧ w.Sourced ∧ g = w.geometry base := by
  unfold Geometry.ofWindow
  cases panes : w.panes with
  | nil => simp
  | cons first rest =>
    have none_yet : w.SourcedTo 0 := fun j pos le => absurd le (by omega)
    have splits (r : List Split × List Nat) :
        splitsFrom w base path [0] 1 rest = .ok r ↔ _ :=
      splitsFrom_eq_ok counted none_yet (by rw [panes]; rfl : w.panes.drop 1 = rest)
    have sourced : w.Sourced ↔ w.SourcedTo (0 + rest.length) := by
      rw [Sourced, panes]; simp
    constructor
    · intro h
      obtain ⟨r, found, eq⟩ := bind_eq_ok.mp h
      obtain ⟨all, rfl⟩ := (splits r).mp found
      cases eq
      refine ⟨by simp, sourced.mpr all, ?_⟩
      simp [geometry, panes, position, Geometry.indices]
    · rintro ⟨-, all, rfl⟩
      have found := (splits _).mpr ⟨sourced.mp all, rfl⟩
      refine bind_eq_ok.mpr ⟨_, found, ?_⟩
      simp [geometry, panes, position, Geometry.indices, pure_eq_ok]

/-- Where no pane names its source, panes are live in the order of their declaration. -/
theorem liveOrder_of_unnamed {w : Window} (unnamed : ∀ pane ∈ w.panes, pane.splitFrom = none)
    (n : Nat) : w.SourcedTo n ∧ w.liveOrder n = List.range (n + 1) := by
  have source (j : Nat) : w.source j = j - 1 := by
    rw [Window.source]
    cases declared : w.panes[j]? with
    | none => rfl
    | some pane => simp [unnamed pane (List.mem_of_getElem? declared)]
  have sourced : w.SourcedTo n := fun j pos _ => by rw [source]; omega
  refine ⟨sourced, ?_⟩
  induction n with
  | zero => rfl
  | succ n ih =>
    have last : (List.range (n + 1)).idxOf n = n := by
      have bound : n < (List.range (n + 1)).length := by simp
      have found := List.nodup_range.idxOf_getElem n bound
      rwa [List.getElem_range] at found
    have place : List.insertIdx (List.range (n + 1)) (n + 1) (n + 1) =
        List.range (n + 1) ++ [n + 1] := by
      conv => lhs; arg 2; rw [← List.length_range (n := n + 1)]
      exact List.insertIdx_length_self ..
    rw [Window.liveOrder, ih (sourced.mono (Nat.le_succ n)), source, Nat.add_sub_cancel, last,
      place, List.range_succ (n := n + 1)]

end Window
end SessionPlan
