import SessionPlan.Tree.Basic

/-! Entries of a mapping after a value has been put under a key. -/
namespace SessionPlan.Tree

/-- A new value comes under a new key or takes the place of another under a key that is there. -/
theorem forall_mem_insert {P : Tree × α → Prop} {found : List (Tree × α)} {key : Tree} {value : α}
    (fresh : P (key, value)) (all : ∀ entry ∈ found, P entry ∧ P (entry.1, value)) :
    ∀ entry ∈ insert key value found, P entry := by
  induction found with
  | nil => simpa [insert] using fresh
  | cons entry rest ih =>
    obtain ⟨k, v⟩ := entry
    have first := all (k, v) List.mem_cons_self
    have later := fun other member => all other (List.mem_cons_of_mem _ member)
    rw [insert]
    split
    · exact List.forall_mem_cons.mpr ⟨first.2, fun other member => (later other member).1⟩
    · exact List.forall_mem_cons.mpr ⟨first.1, ih later⟩

theorem forall_mem_ofPairs {keys values : Tree → Prop} {pairs : List (Tree × Tree)}
    (all : ∀ pair ∈ pairs, keys pair.1 ∧ values pair.2) :
    ∀ entry ∈ ofPairs pairs, keys entry.1 ∧ values entry.2 := by
  unfold ofPairs
  suffices entered : ∀ found : List (Tree × Tree),
      (∀ entry ∈ found, keys entry.1 ∧ values entry.2) →
      ∀ entry ∈ pairs.foldl (fun entries pair => insert pair.1 pair.2 entries) found,
        keys entry.1 ∧ values entry.2 from entered [] (by simp)
  induction pairs with
  | nil => exact fun _ found => found
  | cons pair rest ih =>
    intro found known
    have first := all pair List.mem_cons_self
    exact ih (fun other member => all other (List.mem_cons_of_mem _ member)) _
      (forall_mem_insert first fun entry member =>
        ⟨known entry member, (known entry member).1, first.2⟩)

/-- Keys that are apart are so after another entry. -/
theorem pairwise_insert {key : Tree} {value : α} {entries : List (Tree × α)}
    (apart : entries.Pairwise fun first later => same first.1 later.1 = false) :
    (insert key value entries).Pairwise fun first later => same first.1 later.1 = false := by
  induction entries with
  | nil => exact List.pairwise_singleton _ _
  | cons entry rest ih =>
    obtain ⟨k, v⟩ := entry
    obtain ⟨first, later⟩ := List.pairwise_cons.mp apart
    rw [insert]
    split
    · exact List.pairwise_cons.mpr ⟨first, later⟩
    · rename_i other
      have fresh := Bool.eq_false_iff.mpr other
      have known : ∀ found ∈ insert key value rest, same k found.1 = false :=
        forall_mem_insert (P := fun found => same k found.1 = false) fresh
          fun found member => ⟨first found member, first found member⟩
      exact List.pairwise_cons.mpr ⟨known, ih later⟩

theorem pairwise_ofPairs (pairs : List (Tree × Tree)) :
    (ofPairs pairs).Pairwise fun first later => same first.1 later.1 = false := by
  unfold ofPairs
  suffices entered : ∀ found : List (Tree × Tree),
      (found.Pairwise fun first later => same first.1 later.1 = false) →
      (pairs.foldl (fun entries pair => insert pair.1 pair.2 entries) found).Pairwise
        fun first later => same first.1 later.1 = false from entered [] .nil
  induction pairs with
  | nil => exact fun _ apart => apart
  | cons pair rest ih => exact fun _ apart => ih _ (pairwise_insert apart)

/-- The keys stay where a value is put in the place of another. -/
theorem map_fst_insert {key : Tree} {entries : List (Tree × α)}
    (known : ∃ entry ∈ entries, same entry.1 key = true) (value : α) :
    (insert key value entries).map Prod.fst = entries.map Prod.fst := by
  induction entries with
  | nil => simp at known
  | cons entry rest ih =>
    obtain ⟨k, v⟩ := entry
    rw [insert]
    split
    · rfl
    · rename_i other
      obtain ⟨found, member, here⟩ := known
      rcases List.mem_cons.mp member with rfl | later
      · exact absurd here other
      · rw [List.map_cons, List.map_cons, ih ⟨found, later, here⟩]

/-- A new key comes last. -/
theorem insert_of_fresh {α : Type} {key : Tree} {value : α} {entries : List (Tree × α)}
    (fresh : ∀ entry ∈ entries, same entry.1 key = false) :
    insert key value entries = entries ++ [(key, value)] := by
  induction entries with
  | nil => rfl
  | cons entry rest ih =>
    obtain ⟨k, v⟩ := entry
    have first : same k key = false := fresh (k, v) List.mem_cons_self
    have later := ih fun other member => fresh other (List.mem_cons_of_mem _ member)
    rw [insert, first, later]
    rfl

end SessionPlan.Tree
