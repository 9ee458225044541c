import Mathlib.Data.List.Forall2
import Mathlib.Data.List.Induction
import Mathlib.Data.List.Nodup

/-! Lists without their repetitions, lists that are matched item by item, places in a list, and
lists in the order of a rank. -/
namespace SessionPlan

variable {α : Type}

/-- What a run is followed by. -/
theorem drop_takeWhile (p : α → Bool) (s : List α) :
    s.drop (s.takeWhile p).length = s.dropWhile p := by
  have whole := List.takeWhile_append_dropWhile (p := p) (l := s)
  calc s.drop (s.takeWhile p).length
    _ = (s.takeWhile p ++ s.dropWhile p).drop (s.takeWhile p).length := by rw [whole]
    _ = s.dropWhile p := List.drop_left

/-! ### Repetitions -/

section
variable [BEq α] [LawfulBEq α] {front : List α} {a : α}

theorem eraseDups_concat_of_mem (known : a ∈ front) :
    (front ++ [a]).eraseDups = front.eraseDups := by
  have nothing : [a].removeAll front = [] := by simpa [List.removeAll] using known
  rw [List.eraseDups_append, nothing, List.eraseDups_nil, List.append_nil]

theorem eraseDups_concat_of_not_mem (new : a ∉ front) :
    (front ++ [a]).eraseDups = front.eraseDups ++ [a] := by
  have alone : [a].removeAll front = [a] := by simpa [List.removeAll] using new
  rw [List.eraseDups_append, alone, List.eraseDups_cons]
  rfl

theorem nodup_eraseDups (items : List α) : items.eraseDups.Nodup := by
  induction items using List.reverseRecOn with
  | nil => exact List.nodup_nil
  | append_singleton front a ih =>
    by_cases known : a ∈ front
    · rw [eraseDups_concat_of_mem known]
      exact ih
    · rw [eraseDups_concat_of_not_mem known, ← List.concat_eq_append]
      exact ih.concat (by simpa using known)

end

/-! ### Matched lists -/

theorem map_eq_of_forall₂ {β : Type} {R : α → α → Prop} {f : α → β}
    (same : ∀ a b, R a b → f a = f b) {xs ys : List α} (related : List.Forall₂ R xs ys) :
    xs.map f = ys.map f := by
  induction related with
  | nil => rfl
  | cons first _ ih => rw [List.map_cons, List.map_cons, same _ _ first, ih]

theorem exists_of_forall₂ {β : Type} {R : α → β → Prop} {xs : List α} {ys : List β}
    (related : List.Forall₂ R xs ys) : ∀ a ∈ xs, ∃ b, R a b := by
  induction related with
  | nil => exact nofun
  | cons first _ ih => exact List.forall_mem_cons.mpr ⟨⟨_, first⟩, ih⟩

/-- Where any two items are tied and no two may be, there is at most one, and only one order. -/
theorem eq_of_perm_of_untied {R : α → α → Prop} {xs ys : List α} (perm : xs.Perm ys)
    (apart : xs.Pairwise fun a b => ¬R a b) (tied : ∀ a ∈ xs, ∀ b ∈ xs, R a b) : xs = ys := by
  match xs with
  | [] => exact (List.nil_perm.mp perm).symm
  | [a] => exact List.singleton_perm.mp perm
  | a :: b :: rest =>
    have pair : ¬R a b := (List.pairwise_cons.mp apart).1 b List.mem_cons_self
    exact absurd (tied a (by simp) b (by simp)) pair

/-- Items that give nothing may be left out. -/
theorem flatMap_filter_of_eq_nil {β : Type} {p : α → Bool} {f : α → List β} {items : List α}
    (silent : ∀ a ∈ items, p a = false → f a = []) :
    (items.filter p).flatMap f = items.flatMap f := by
  induction items with
  | nil => rfl
  | cons a rest ih =>
    have later := ih fun b member => silent b (List.mem_cons_of_mem _ member)
    cases kept : p a with
    | true => rw [List.filter_cons_of_pos kept, List.flatMap_cons, later, List.flatMap_cons]
    | false =>
      rw [List.filter_cons_of_neg (by simp [kept]), later, List.flatMap_cons,
        silent a List.mem_cons_self kept, List.nil_append]

/-! ### Places -/

theorem insertIdx_eq_append {items : List α} {n : Nat} (inside : n ≤ items.length) (a : α) :
    items.insertIdx n a = items.take n ++ a :: items.drop n := by
  induction n generalizing items with
  | zero => rw [List.insertIdx_zero, List.take_zero, List.drop_zero, List.nil_append]
  | succ n ih =>
    cases items with
    | nil => cases inside
    | cons b rest =>
      rw [List.insertIdx_succ_cons, ih (Nat.le_of_succ_le_succ inside)]
      rfl

/-- The first item that is hit comes after the ones that are missed. -/
theorem findIdx?_append_cons {before after : List α} {a : α} {hit : α → Bool} (here : hit a = true)
    (missed : ∀ b ∈ before, hit b = false) :
    (before ++ a :: after).findIdx? hit = some before.length := by
  rw [List.findIdx?_append, List.findIdx?_eq_none_iff.mpr missed, List.findIdx?_cons, if_pos here]
  simp

/-- Another item in one place is seen in no other. -/
theorem getElem?_append_cons_of_ne {before after : List α} {n : Nat} (apart : n ≠ before.length)
    (a b : α) : (before ++ a :: after)[n]? = (before ++ b :: after)[n]? := by
  rcases Nat.lt_or_gt_of_ne apart with early | late
  · rw [List.getElem?_append_left early, List.getElem?_append_left early]
  · rw [List.getElem?_append_right (Nat.le_of_lt late),
      List.getElem?_append_right (Nat.le_of_lt late)]
    obtain ⟨k, further⟩ := Nat.exists_eq_add_of_lt late
    rw [show n - before.length = k + 1 by omega, List.getElem?_cons_succ, List.getElem?_cons_succ]

/-- A list is cut at the last `mark` in one way. -/
theorem append_cons_inj_of_last {mark : α} {s t after rest : List α}
    (same : s ++ mark :: after = t ++ mark :: rest) (last : mark ∉ after) (last' : mark ∉ rest) :
    s = t ∧ after = rest := by
  have alone {between after rest : List α} (eq : mark :: after = between ++ mark :: rest)
      (last : mark ∉ after) : between = [] ∧ after = rest := by
    cases between with
    | nil => exact ⟨rfl, (List.cons_eq_cons.mp eq).2⟩
    | cons c between =>
      obtain ⟨-, rfl⟩ := List.cons_eq_cons.mp eq
      simp at last
  rcases List.append_eq_append_iff.mp same with ⟨between, rfl, eq⟩ | ⟨between, rfl, eq⟩
  · obtain ⟨rfl, found⟩ := alone eq last
    exact ⟨(List.append_nil s).symm, found⟩
  · obtain ⟨rfl, found⟩ := alone eq last'
    exact ⟨List.append_nil t, found.symm⟩

/-- Where each item is found, one after the other. -/
theorem map_idxOf_self [DecidableEq α] {order : List α} (distinct : order.Nodup) :
    order.map order.idxOf = List.range order.length := by
  apply List.ext_getElem
  · simp
  · intro k _ _
    rw [List.getElem_map, List.getElem_range, distinct.idxOf_getElem]

/-- In a list without repetitions, what stands in a block is what comes within its length after the
item in front of it. -/
theorem mem_block_iff [DecidableEq α] {before block after : List α} {i j : α}
    (distinct : (before ++ i :: (block ++ after)).Nodup)
    (known : j ∈ before ++ i :: (block ++ after)) :
    j ∈ block ↔
      (before ++ i :: (block ++ after)).idxOf i < (before ++ i :: (block ++ after)).idxOf j ∧
        (before ++ i :: (block ++ after)).idxOf j ≤
          (before ++ i :: (block ++ after)).idxOf i + block.length := by
  obtain ⟨-, distinct, apart⟩ := List.nodup_append'.mp distinct
  obtain ⟨own, distinct⟩ := List.nodup_cons.mp distinct
  obtain ⟨-, -, further⟩ := List.nodup_append'.mp distinct
  have here : i ∉ before := fun member => apart member List.mem_cons_self
  rw [List.idxOf_append_of_notMem here, List.idxOf_cons_self]
  by_cases early : j ∈ before
  · have place := List.idxOf_lt_length_of_mem early
    have absent : j ∉ block := fun member =>
      apart early (List.mem_cons_of_mem _ (List.mem_append_left _ member))
    rw [List.idxOf_append_of_mem early]
    exact ⟨fun member => absurd member absent, fun bounds => absurd bounds.1 (by omega)⟩
  · rw [List.idxOf_append_of_notMem early]
    by_cases same : i = j
    · subst same
      rw [List.idxOf_cons_self]
      exact ⟨fun member => absurd (List.mem_append_left _ member) own, fun bounds => by omega⟩
    · rw [List.idxOf_cons_ne _ same]
      by_cases inside : j ∈ block
      · have place := List.idxOf_lt_length_of_mem inside
        rw [List.idxOf_append_of_mem inside]
        exact ⟨fun _ => by omega, fun _ => inside⟩
      · rw [List.idxOf_append_of_notMem inside]
        exact ⟨fun member => absurd member inside, fun bounds => by omega⟩

/-! ### Sorting by rank -/

section
variable {rank : α → Nat}

theorem rank_le_trans (rank : α → Nat) (a b c : α) (first : decide (rank a ≤ rank b) = true)
    (second : decide (rank b ≤ rank c) = true) : decide (rank a ≤ rank c) = true := by
  rw [decide_eq_true_eq] at first second ⊢
  exact Nat.le_trans first second

theorem rank_le_total (rank : α → Nat) (a b : α) :
    (decide (rank a ≤ rank b) || decide (rank b ≤ rank a)) = true := by
  rw [Bool.or_eq_true, decide_eq_true_eq, decide_eq_true_eq]
  exact Nat.le_total (rank a) (rank b)

theorem mergeSort_sorted (rank : α → Nat) (items : List α) :
    (items.mergeSort fun a b => decide (rank a ≤ rank b)).Pairwise fun a b => rank a ≤ rank b :=
  (List.pairwise_mergeSort (rank_le_trans rank) (rank_le_total rank) items).imp of_decide_eq_true

/-- What has one rank keeps its order. -/
theorem filter_mergeSort (rank : α → Nat) (items : List α) (r : Nat) :
    (items.mergeSort fun a b => decide (rank a ≤ rank b)).filter (rank · = r) =
      items.filter (rank · = r) := by
  have level : (items.filter (rank · = r)).Pairwise fun a b => decide (rank a ≤ rank b) = true := by
    rw [List.pairwise_filter]
    apply List.pairwise_of_forall
    intro a b first second
    simp only [decide_eq_true_eq] at first second ⊢
    omega
  have kept := List.sublist_mergeSort (rank_le_trans rank) (rank_le_total rank) level
    List.filter_sublist
  have same := kept.filter (rank · = r)
  rw [List.filter_filter] at same
  simp only [Bool.and_self] at same
  have length := ((List.mergeSort_perm items fun a b => decide (rank a ≤ rank b)).filter
    (rank · = r)).length_eq
  exact (same.eq_of_length length.symm).symm

/-- An item that is matched within its rank has no less a rank than the first of the other list. -/
theorem rank_first_le {R : α → α → Prop} {x y : α} {xs ys : List α}
    (least : ∀ b ∈ ys, rank y ≤ rank b)
    (within : List.Forall₂ R ((x :: xs).filter (rank · = rank x))
      ((y :: ys).filter (rank · = rank x))) : rank y ≤ rank x := by
  rw [List.filter_cons_of_pos (by simp)] at within
  obtain ⟨b, bs, -, -, found⟩ := List.forall₂_cons_left_iff.mp within
  have member : b ∈ (y :: ys).filter (rank · = rank x) := by
    rw [found]
    exact List.mem_cons_self
  obtain ⟨known, level⟩ := List.mem_filter.mp member
  rw [decide_eq_true_eq] at level
  rcases List.mem_cons.mp known with rfl | later
  · exact Nat.le_of_eq level
  · rw [← level]
    exact least b later

/-- Lists in the order of ranks are related item by item if they are within each rank. -/
theorem forall₂_of_ranks {R : α → α → Prop} {xs ys : List α}
    (xsSorted : xs.Pairwise fun a b => rank a ≤ rank b)
    (ysSorted : ys.Pairwise fun a b => rank a ≤ rank b)
    (within : ∀ r, List.Forall₂ R (xs.filter (rank · = r)) (ys.filter (rank · = r))) :
    List.Forall₂ R xs ys := by
  induction xs generalizing ys with
  | nil =>
    cases ys with
    | nil => exact .nil
    | cons y ys =>
      have first := (within (rank y)).length_eq
      simp at first
  | cons x xs ih =>
    cases ys with
    | nil =>
      have first := (within (rank x)).length_eq
      simp at first
    | cons y ys =>
      obtain ⟨xLeast, xsSorted⟩ := List.pairwise_cons.mp xsSorted
      obtain ⟨yLeast, ysSorted⟩ := List.pairwise_cons.mp ysSorted
      have low := rank_first_le yLeast (within (rank x))
      have high := rank_first_le xLeast (within (rank y)).flip
      have level : rank x = rank y := Nat.le_antisymm high low
      have first : R x y ∧ List.Forall₂ R (xs.filter (rank · = rank x))
          (ys.filter (rank · = rank x)) := by
        have here := within (rank x)
        rw [List.filter_cons_of_pos (by simp), List.filter_cons_of_pos (by simp [level])] at here
        exact List.forall₂_cons.mp here
      refine .cons first.1 (ih xsSorted ysSorted fun r => ?_)
      by_cases here : rank x = r
      · subst here
        exact first.2
      · have later := within r
        rwa [List.filter_cons_of_neg (by simp [here]),
          List.filter_cons_of_neg (by simp [← level, here])] at later

end

end SessionPlan
