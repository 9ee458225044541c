import SessionPlan.Proofs.Lists
import SessionPlan.Proofs.Plan.FirstSource
import SessionPlan.Proofs.Plan.LiveOrder
import Mathlib.Logic.Relation

/-! The panes of a window as a tree, in which the parent of a pane is the one that it is split from.
The live order of the panes is the pre-order of this tree in which the children of a pane come from
the last declared to the first, so that a pane is followed at once by all that is below it. -/
namespace SessionPlan
namespace Window

/-- Panes up to pane `n` that are split from pane `i`, in the order of their declaration. -/
def children (w : Window) (n i : Nat) : List Nat :=
  (List.range' (i + 1) (n - i)).filter fun j => w.source j = i

theorem mem_children {w : Window} {n i j : Nat} :
    j ∈ w.children n i ↔ i < j ∧ j ≤ n ∧ w.source j = i := by
  rw [children, List.mem_filter, List.mem_range'_1, decide_eq_true_eq]
  omega

/-- The panes up to pane `n` in the tree below pane `i`: a pane comes before its children, and of
these the last declared comes first. -/
def preorder (w : Window) (n i : Nat) : List Nat :=
  i :: (w.children n i).reverse.attach.flatMap fun ⟨j, _⟩ => w.preorder n j
termination_by n - i
decreasing_by
  have later := mem_children.mp (List.mem_reverse.mp ‹_›)
  omega

theorem preorder_eq (w : Window) (n i : Nat) :
    w.preorder n i = i :: (w.children n i).reverse.flatMap (w.preorder n) := by
  rw [preorder, ← List.flatMap_map Subtype.val (w.preorder n), List.attach_map_subtype_val]

/-! ### A further split -/

/-- The order with `new` right after `old`. -/
def insertAfter (old new : Nat) (order : List Nat) : List Nat :=
  order.flatMap fun j => if j = old then [j, new] else [j]

theorem insertAfter_cons (old new j : Nat) (order : List Nat) :
    insertAfter old new (j :: order) =
      (if j = old then [j, new] else [j]) ++ insertAfter old new order := rfl

theorem insertAfter_of_not_mem {old new : Nat} {order : List Nat} (absent : old ∉ order) :
    insertAfter old new order = order := by
  induction order with
  | nil => rfl
  | cons j rest ih =>
    obtain ⟨other, later⟩ := not_or.mp (mt List.mem_cons.mpr absent)
    rw [insertAfter_cons, if_neg (Ne.symm other), ih later]
    rfl

theorem insertAfter_eq_insertIdx {old new : Nat} {order : List Nat} (distinct : order.Nodup)
    (known : old ∈ order) :
    insertAfter old new order = order.insertIdx (order.idxOf old + 1) new := by
  induction order with
  | nil => cases known
  | cons j rest ih =>
    obtain ⟨apart, distinct⟩ := List.nodup_cons.mp distinct
    rw [insertAfter_cons]
    by_cases here : j = old
    · subst here
      rw [if_pos rfl, insertAfter_of_not_mem apart, List.idxOf_cons_self]
      rfl
    · have later : old ∈ rest := (List.mem_cons.mp known).resolve_left (Ne.symm here)
      rw [if_neg here, ih distinct later, List.idxOf_cons_ne rest here]
      rfl

theorem children_succ {w : Window} {n i : Nat} (le : i ≤ n) :
    w.children (n + 1) i = w.children n i ++ if w.source (n + 1) = i then [n + 1] else [] := by
  have count : n + 1 - i = n - i + 1 := by omega
  have last : i + 1 + (n - i) = n + 1 := by omega
  rw [children, count, List.range'_1_concat, last, List.filter_append, children]
  congr 1
  by_cases here : w.source (n + 1) = i <;> simp [here]

/-- The last pane has no children yet. -/
theorem preorder_last (w : Window) (n : Nat) : w.preorder n n = [n] := by
  rw [preorder_eq, children, Nat.sub_self]
  rfl

/-- A further pane comes right after the one that it is split from, since it is the last declared
of the children. -/
theorem preorder_succ {w : Window} {n i : Nat} (le : i ≤ n) :
    w.preorder (n + 1) i = insertAfter (w.source (n + 1)) (n + 1) (w.preorder n i) := by
  induction below : n - i using Nat.strongRecOn generalizing i with
  | ind m ih =>
    have later : (w.children n i).reverse.flatMap (w.preorder (n + 1)) =
        insertAfter (w.source (n + 1)) (n + 1)
          ((w.children n i).reverse.flatMap (w.preorder n)) := by
      rw [insertAfter, List.flatMap_assoc]
      refine List.flatMap_congr fun j child => ?_
      obtain ⟨further, inside, -⟩ := mem_children.mp (List.mem_reverse.mp child)
      exact ih (n - j) (by omega) inside rfl
    rw [preorder_eq, preorder_eq w n, insertAfter_cons, ← later, children_succ le]
    by_cases here : w.source (n + 1) = i
    · rw [if_pos here, if_pos here.symm, List.reverse_append, List.flatMap_append]
      simp [preorder_last]
    · rw [if_neg here, if_neg (Ne.symm here), List.append_nil]
      rfl

/-- The live order is the pre-order of the tree. -/
theorem liveOrder_eq_preorder {w : Window} {n : Nat} (sourced : w.SourcedTo n) :
    w.liveOrder n = w.preorder n 0 := by
  induction n with
  | zero => exact (w.preorder_last 0).symm
  | succ n ih =>
    have before := sourced.mono (Nat.le_succ n)
    have known : w.source (n + 1) ∈ w.liveOrder n :=
      (mem_liveOrder before).mpr (Nat.le_of_lt_succ (sourced (n + 1) n.succ_pos (Nat.le_refl _)))
    rw [preorder_succ (Nat.zero_le n), ← ih before,
      insertAfter_eq_insertIdx (nodup_liveOrder before) known]
    rfl

/-! ### Below a pane -/

/-- Pane `j` is split from pane `i`. -/
def IsChild (w : Window) (i j : Nat) : Prop := 0 < j ∧ w.source j = i

/-- Pane `j` is split from pane `i` or from a pane below that one. -/
def Below (w : Window) : Nat → Nat → Prop := Relation.TransGen w.IsChild

theorem IsChild.lt {w : Window} {n i j : Nat} (child : w.IsChild i j) (sourced : w.SourcedTo n)
    (inside : j ≤ n) : i < j := by
  obtain ⟨pos, rfl⟩ := child
  exact sourced j pos inside

theorem Below.lt {w : Window} {n i j : Nat} (below : w.Below i j) (sourced : w.SourcedTo n)
    (inside : j ≤ n) : i < j := by
  induction below with
  | single child => exact child.lt sourced inside
  | tail _ child ih =>
    have last := child.lt sourced inside
    exact Nat.lt_trans (ih (by omega)) last

theorem mem_preorder_self (w : Window) (n i : Nat) : i ∈ w.preorder n i := by
  rw [preorder_eq]
  exact List.mem_cons_self

theorem mem_preorder {w : Window} {n i j : Nat} (sourced : w.SourcedTo n) (inside : j ≤ n) :
    j ∈ w.preorder n i ↔ j = i ∨ w.Below i j := by
  constructor
  · intro member
    induction below : n - i using Nat.strongRecOn generalizing i with
    | ind m ih =>
      rw [preorder_eq, List.mem_cons, List.mem_flatMap] at member
      refine member.imp_right fun ⟨k, child, within⟩ => ?_
      obtain ⟨further, small, source⟩ := mem_children.mp (List.mem_reverse.mp child)
      have first : w.IsChild i k := ⟨by omega, source⟩
      rcases ih (n - k) (by omega) within rfl with rfl | later
      · exact .single first
      · exact .head first later
  · rintro (rfl | below)
    · exact w.mem_preorder_self n j
    · have child_mem {i k : Nat} (child : w.IsChild i k) (small : k ≤ n)
          (within : j ∈ w.preorder n k) : j ∈ w.preorder n i := by
        have listed : k ∈ w.children n i :=
          mem_children.mpr ⟨child.lt sourced small, small, child.2⟩
        rw [preorder_eq]
        exact List.mem_cons_of_mem _
          (List.mem_flatMap.mpr ⟨k, List.mem_reverse.mpr listed, within⟩)
      induction below using Relation.TransGen.head_induction_on with
      | single child => exact child_mem child inside (w.mem_preorder_self n j)
      | head child later ih =>
        have before := Below.lt later sourced inside
        exact child_mem child (by omega) ih

/-- What is below a pane stands together. -/
theorem preorder_infix {w : Window} {n i : Nat} (sourced : w.SourcedTo n) (inside : i ≤ n) :
    w.preorder n i <:+: w.preorder n 0 := by
  induction i using Nat.strongRecOn with
  | ind i ih =>
    rcases Nat.eq_zero_or_pos i with rfl | pos
    · exact List.infix_rfl
    · have before := sourced i pos inside
      have child : i ∈ (w.children n (w.source i)).reverse :=
        List.mem_reverse.mpr (mem_children.mpr ⟨before, inside, rfl⟩)
      have own : w.preorder n i <:+: w.preorder n (w.source i) := by
        obtain ⟨later, earlier, all⟩ := List.append_of_mem child
        rw [preorder_eq w n (w.source i), all]
        exact ⟨w.source i :: later.flatMap (w.preorder n), earlier.flatMap (w.preorder n),
          by simp⟩
      exact own.trans (ih _ before (by omega))

/-! ### Live indices -/

/-- No pane but the first names a source below 0 or one that is not declared before it. -/
def NamesEarlier (w : Window) : Prop :=
  ∀ (j : Nat) (pane : Pane), w.panes[j + 1]? = some pane →
    ∀ s ∈ pane.splitFrom, 0 ≤ s ∧ s < (j + 1 : Nat)

theorem NamesEarlier.sourcedTo {w : Window} (earlier : w.NamesEarlier) (n : Nat) :
    w.SourcedTo n := by
  rintro (_ | j) pos -
  · cases pos
  · rw [source]
    split
    · rename_i s named
      obtain ⟨pane, declared, found⟩ := Option.bind_eq_some_iff.mp named
      have bounds := earlier j pane declared s found
      omega
    · omega

section
variable (w : Window) (first : Option Int)

theorem source_withFirstSource {j : Nat} (pos : 0 < j) :
    (w.withFirstSource first).source j = w.source j := by
  rw [source, source, withFirstSource, List.getElem?_modifyHead, if_neg (by omega)]

theorem liveOrder_withFirstSource (n : Nat) :
    (w.withFirstSource first).liveOrder n = w.liveOrder n := by
  induction n with
  | zero => rfl
  | succ n ih => rw [liveOrder, liveOrder, ih, source_withFirstSource w first n.succ_pos]

theorem geometry_withFirstSource (base : Int) :
    (w.withFirstSource first).geometry base = w.geometry base := by
  have tail : (w.withFirstSource first).panes.tail = w.panes.tail := by
    rw [withFirstSource]
    cases w.panes <;> rfl
  have count : (w.withFirstSource first).panes.length = w.panes.length := List.length_modifyHead ..
  have splits : ∀ e ∈ w.panes.tail.zipIdx 1,
      (w.withFirstSource first).splitAt base e.1 e.2 = w.splitAt base e.1 e.2 := by
    intro e member
    have pos : 0 < e.2 := (List.mem_zipIdx_iff_le_and_getElem?_sub.mp member).1
    simp only [splitAt, splitPosition, liveOrder_withFirstSource,
      source_withFirstSource w first pos]
    rfl
  simp only [geometry, tail, List.map_congr_left splits, count, position,
    liveOrder_withFirstSource]
  rfl

end

/-- Where no pane names a source that is not there, the window has a geometry. -/
theorem NamesEarlier.ofWindow_eq {w : Window} (earlier : w.NamesEarlier) (panes : w.panes ≠ [])
    (base : Int) (path : String) : Geometry.ofWindow w base path = .ok (w.geometry base) := by
  have counted : (w.withFirstSource none).Counted := by
    intro pane member s named
    obtain ⟨j, declared⟩ := List.mem_iff_getElem?.mp member
    rw [withFirstSource, List.getElem?_modifyHead] at declared
    cases j with
    | zero =>
      obtain ⟨old, -, rfl⟩ := Option.map_eq_some_iff.mp declared
      cases named
    | succ j => exact (earlier j pane declared s named).1
  have sourced : (w.withFirstSource none).Sourced := by
    intro j pos le
    rw [source_withFirstSource w none pos]
    exact earlier.sourcedTo j j pos (Nat.le_refl j)
  have nonempty : (w.withFirstSource none).panes ≠ [] := by
    rw [withFirstSource, Ne, List.modifyHead_eq_nil_iff]
    exact panes
  rw [← Geometry.ofWindow_withFirstSource w none, ← geometry_withFirstSource w none]
  exact (ofWindow_eq_ok counted).mpr ⟨nonempty, sourced, rfl⟩

/-- What is below a pane comes right after it in the live order. -/
theorem below_iff {w : Window} {n i j : Nat} (sourced : w.SourcedTo n) (known : i ≤ n)
    (inside : j ≤ n) :
    w.Below i j ↔ (w.preorder n 0).idxOf i < (w.preorder n 0).idxOf j ∧
      (w.preorder n 0).idxOf j ≤ (w.preorder n 0).idxOf i + (w.preorder n i).tail.length := by
  obtain ⟨before, after, whole⟩ := preorder_infix sourced known
  have listed := (mem_liveOrder sourced).mpr inside
  have distinct := nodup_liveOrder sourced
  have members := mem_preorder (i := i) sourced inside
  have block : w.preorder n i = i :: (w.preorder n i).tail := by rw [preorder_eq]; rfl
  rw [block, List.mem_cons] at members
  rw [block, List.append_assoc, List.cons_append] at whole
  rw [liveOrder_eq_preorder sourced, ← whole] at distinct listed
  rw [← whole, ← mem_block_iff distinct listed]
  have apart : i ∉ (w.preorder n i).tail := fun member =>
    (List.nodup_cons.mp (List.nodup_append'.mp distinct).2.1).1 (List.mem_append_left _ member)
  constructor
  · intro below
    exact (members.mpr (.inr below)).resolve_left (Nat.ne_of_gt (below.lt sourced inside))
  · intro member
    refine (members.mp (.inr member)).resolve_left ?_
    rintro rfl
    exact apart member

/-- All panes of the window in pre-order. -/
def traversal (w : Window) : List Nat := w.preorder (w.panes.length - 1) 0

section
variable {w : Window} {base : Int}

theorem traversal_perm (panes : w.panes ≠ []) (sourced : w.Sourced) :
    w.traversal.Perm (List.range w.panes.length) := by
  have perm := liveOrder_perm sourced
  rwa [liveOrder_eq_preorder sourced,
    Nat.sub_add_cancel (List.length_pos_iff.mpr panes)] at perm

theorem finalIndices_eq (sourced : w.Sourced) : (w.geometry base).finalIndices =
    (List.range w.panes.length).map fun j => base + (w.traversal.idxOf j : Nat) := by
  simp only [geometry, position, liveOrder_eq_preorder sourced, traversal]

theorem getElem?_finalIndices (sourced : w.Sourced) {j : Nat} {x : Int} :
    (w.geometry base).finalIndices[j]? = some x ↔
      j < w.panes.length ∧ x = base + (w.traversal.idxOf j : Nat) := by
  rw [finalIndices_eq sourced, List.getElem?_map, Option.map_eq_some_iff]
  constructor
  · rintro ⟨k, found, rfl⟩
    obtain ⟨bound, rfl⟩ := List.getElem?_eq_some_iff.mp found
    rw [List.getElem_range]
    exact ⟨by rwa [List.length_range] at bound, rfl⟩
  · rintro ⟨bound, rfl⟩
    exact ⟨j, List.getElem?_range bound, rfl⟩

/-- In pre-order the live indices ascend from the base. -/
theorem map_live (panes : w.panes ≠ []) (sourced : w.Sourced) (base : Int) :
    (w.traversal.map fun j => base + (w.traversal.idxOf j : Nat)) =
      (List.range w.panes.length).map fun (k : Nat) => base + k := by
  have perm := traversal_perm panes sourced
  have places := map_idxOf_self (perm.nodup_iff.mpr List.nodup_range)
  rw [perm.length_eq, List.length_range] at places
  rw [← places, List.map_map]
  rfl

end

/-- The live order is the pre-order of the tree that the panes form. Live indices are given once
each, from the base on and in that order; whatever is below a pane comes right after it; and a pane
is split where its source stands in the pre-order of the panes before it. -/
theorem ofWindow_preorder {w : Window} (panes : w.panes ≠ []) (earlier : w.NamesEarlier)
    (base : Int) (path : String) :
    ∃ g, Geometry.ofWindow w base path = .ok g ∧
      g.finalIndices.Perm ((List.range w.panes.length).map fun (k : Nat) => base + k) ∧
      (w.traversal.map fun (j : Nat) => g.finalIndices[j]?) =
        (List.range w.panes.length).map (fun (k : Nat) => some (base + k)) ∧
      (∀ (i : Nat) (x : Int), g.finalIndices[i]? = some x → ∃ d : Nat, ∀ (j : Nat) (y : Int),
        g.finalIndices[j]? = some y → (w.Below i j ↔ x < y ∧ y ≤ x + d)) ∧
      (g.splits.map fun s => (s.pane, s.source, s.sourceTarget)) =
        (List.range' 1 (w.panes.length - 1)).map fun j =>
          (j, w.source j, base + ((w.preorder (j - 1) 0).idxOf (w.source j) : Nat)) := by
  have sourced : w.Sourced := earlier.sourcedTo (w.panes.length - 1)
  have perm := traversal_perm panes sourced
  have inOrder := map_live panes sourced base
  refine ⟨w.geometry base, earlier.ofWindow_eq panes base path, ?given, ?order, ?below, ?splits⟩
  case given =>
    rw [finalIndices_eq sourced, ← inOrder]
    exact perm.symm.map _
  case order =>
    have each : ∀ j ∈ w.traversal, (w.geometry base).finalIndices[j]? =
        some (base + (w.traversal.idxOf j : Nat)) := fun j member =>
      (getElem?_finalIndices sourced).mpr ⟨List.mem_range.mp (perm.mem_iff.mp member), rfl⟩
    have wrapped := congrArg (List.map some) inOrder
    rw [List.map_map, List.map_map] at wrapped
    exact (List.map_congr_left each).trans wrapped
  case below =>
    intro i x here
    obtain ⟨known, rfl⟩ := (getElem?_finalIndices sourced).mp here
    refine ⟨(w.preorder (w.panes.length - 1) i).tail.length, fun j y there => ?_⟩
    obtain ⟨inside, rfl⟩ := (getElem?_finalIndices sourced).mp there
    rw [below_iff sourced (by omega) (by omega), traversal]
    omega
  case splits =>
    have declared : (w.panes.tail.zipIdx 1).map Prod.snd = List.range' 1 (w.panes.length - 1) := by
      rw [List.zipIdx_map_snd, List.length_tail]
    have place (j : Nat) : w.splitPosition j = (w.preorder (j - 1) 0).idxOf (w.source j) := by
      rw [splitPosition, liveOrder_eq_preorder (earlier.sourcedTo (j - 1))]
    rw [← declared, List.map_map, geometry, List.map_map]
    refine List.map_congr_left fun e _ => ?_
    simp only [Function.comp, splitAt, place]

/-- Three panes are split from the first one, whose own source is of no account, and one from the
third. -/
def forkedWindow : Window where
  panes := [{ splitFrom := some (-3) }, { index := 2 }, { index := 3, splitFrom := some 0 },
    { index := 4 }, { index := 5, splitFrom := some 0 }]

theorem namesEarlier_forkedWindow : forkedWindow.NamesEarlier := by
  intro j pane declared s named
  match j with
  | 0 | 2 => cases declared; cases named
  | 1 | 3 => cases declared; cases named; decide
  | j + 4 => cases declared

theorem traversal_forkedWindow : forkedWindow.traversal = [0, 4, 2, 3, 1] :=
  (liveOrder_eq_preorder (namesEarlier_forkedWindow.sourcedTo 4)).symm.trans (by decide)

theorem ofWindow_preorder_forked : forkedWindow.NamesEarlier ∧
    ∃ g, Geometry.ofWindow forkedWindow 1 "" = .ok g ∧ g.finalIndices.Perm [1, 2, 3, 4, 5] ∧
      ([0, 4, 2, 3, 1].map fun (j : Nat) => g.finalIndices[j]?) =
        [some 1, some 2, some 3, some 4, some 5] := by
  obtain ⟨g, found, given, order, -⟩ :=
    ofWindow_preorder (List.cons_ne_nil _ _) namesEarlier_forkedWindow 1 ""
  rw [traversal_forkedWindow] at order
  exact ⟨namesEarlier_forkedWindow, g, found, given, order⟩

end Window
end SessionPlan
