import SessionPlan.Proofs.Settings.Merged
import SessionPlan.Proofs.Tree.Entries
import SessionPlan.Proofs.Tree.Keys

/-! Nested tables and what stands in them at a path of keys. A table lets a path through if nothing
stands there and nothing on the way to it is anything else than a table. -/
namespace SessionPlan.Settings
open SessionPlan.Tree (same lookupKey IsFound same_symm same_trans)

variable {a b key k : Tree} {path : List Tree} {entries : List (Tree × Tree)}

mutual

/-- Tables whose keys are found again, all of them different. -/
def IsNested : Tree → Prop
  | .mapping entries =>
    HaveNested entries ∧ entries.Pairwise fun first later => same first.1 later.1 = false
  | _ => True

def HaveNested : List (Tree × Tree) → Prop
  | [] => True
  | (key, value) :: rest => IsFound key ∧ IsNested value ∧ HaveNested rest

end

theorem haveNested_iff :
    HaveNested entries ↔ ∀ entry ∈ entries, IsFound entry.1 ∧ IsNested entry.2 := by
  induction entries with
  | nil => simp [HaveNested]
  | cons entry rest ih => simp [HaveNested, ih, and_assoc]

theorem HaveNested.isFound (nested : HaveNested entries) : ∀ entry ∈ entries, IsFound entry.1 :=
  fun entry member => (haveNested_iff.mp nested entry member).1

theorem ne_mapping_of_leaf {t : Tree} (leaf : isTable t = false) (entries : List (Tree × Tree)) :
    t ≠ .mapping entries := by
  rintro rfl
  cases leaf

/-! ### Values under a key -/

def valueAt (key : Tree) (entries : List (Tree × Tree)) : Option Tree :=
  (lookupKey key entries).map Prod.snd

theorem valueAt_cons (key k v : Tree) (rest : List (Tree × Tree)) :
    valueAt key ((k, v) :: rest) = if same k key then some v else valueAt key rest := by
  cases here : same k key <;> simp [valueAt, lookupKey, here]

theorem valueAt_eq_none (apart : ∀ entry ∈ entries, same entry.1 key = false) :
    valueAt key entries = none := by
  induction entries with
  | nil => rfl
  | cons entry rest ih =>
    rw [valueAt_cons, apart entry List.mem_cons_self,
      ih fun other member => apart other (List.mem_cons_of_mem _ member)]
    rfl

theorem mem_of_valueAt {value : Tree} (found : valueAt key entries = some value) :
    ∃ k, (k, value) ∈ entries := by
  obtain ⟨⟨k, v⟩, here, rfl⟩ := Option.map_eq_some_iff.mp found
  exact ⟨k, List.mem_of_find?_eq_some here⟩

theorem HaveNested.valueAt (nested : HaveNested entries) {value : Tree}
    (found : valueAt key entries = some value) : IsNested value := by
  obtain ⟨k, member⟩ := mem_of_valueAt found
  exact (haveNested_iff.mp nested _ member).2

theorem valueAt_of_mem (all : ∀ entry ∈ entries, IsFound entry.1)
    (apart : entries.Pairwise fun first later => same first.1 later.1 = false) {value : Tree}
    (member : (key, value) ∈ entries) : valueAt key entries = some value := by
  induction entries with
  | nil => cases member
  | cons entry rest ih =>
    obtain ⟨k, v⟩ := entry
    obtain ⟨fresh, apart⟩ := List.pairwise_cons.mp apart
    obtain ⟨first, later⟩ := List.forall_mem_cons.mp all
    rw [valueAt_cons]
    rcases List.mem_cons.mp member with here | there
    · cases here
      rw [if_pos first.itself]
    · rw [fresh _ there, ih later apart there]
      rfl

/-- Keys that are the same have the same value. -/
theorem valueAt_congr (aFound : IsFound a) (bFound : IsFound b) (here : same a b = true)
    (all : ∀ entry ∈ entries, IsFound entry.1) : valueAt a entries = valueAt b entries := by
  induction entries with
  | nil => rfl
  | cons entry rest ih =>
    obtain ⟨k, v⟩ := entry
    obtain ⟨first, later⟩ := List.forall_mem_cons.mp all
    have alike : same k a = same k b := by
      rw [Bool.eq_iff_iff]
      exact ⟨fun at_a => same_trans first aFound bFound at_a here,
        fun at_b => same_trans first bFound aFound at_b (same_symm aFound bFound here)⟩
    rw [valueAt_cons, valueAt_cons, alike, ih later]

theorem valueAt_insert (keyFound : IsFound key) (kFound : IsFound k)
    (all : ∀ entry ∈ entries, IsFound entry.1) (value : Tree) :
    valueAt key (Tree.insert k value entries) =
      if same k key then some value else valueAt key entries := by
  induction entries with
  | nil => rw [Tree.insert, valueAt_cons]
  | cons entry rest ih =>
    obtain ⟨first, v⟩ := entry
    obtain ⟨firstFound, later⟩ := List.forall_mem_cons.mp all
    rw [Tree.insert]
    split
    · rename_i known
      have alike : same first key = same k key := by
        rw [Bool.eq_iff_iff]
        exact ⟨same_trans kFound firstFound keyFound (same_symm firstFound kFound known),
          same_trans firstFound kFound keyFound known⟩
      rw [valueAt_cons, valueAt_cons, alike]
      split <;> rfl
    · rename_i other
      rw [valueAt_cons, valueAt_cons, ih later]
      by_cases here : same first key = true
      · have apart : ¬same k key = true := fun there =>
          other (same_trans firstFound keyFound kFound here (same_symm kFound keyFound there))
        rw [if_pos here, if_neg apart, if_pos here]
      · rw [if_neg here, if_neg here]

/-- A value that stands under the key already changes nothing. -/
theorem insert_of_valueAt {value : Tree} (found : valueAt key entries = some value) :
    Tree.insert key value entries = entries := by
  induction entries with
  | nil => cases found
  | cons entry rest ih =>
    obtain ⟨k, v⟩ := entry
    rw [valueAt_cons] at found
    rw [Tree.insert]
    split at found
    · cases found
      rename_i here
      rw [if_pos here]
    · rename_i other
      rw [if_neg other, ih found]

/-! ### Paths -/

/-- What stands at a path. -/
def atPath? : List Tree → Tree → Option Tree
  | [], t => some t
  | key :: path, .mapping entries => (valueAt key entries).bind (atPath? path)
  | _ :: _, _ => none

theorem IsNested.atPath? {t value : Tree} (nested : IsNested t)
    (found : atPath? path t = some value) : IsNested value := by
  induction path generalizing t with
  | nil =>
    cases found
    exact nested
  | cons key path ih =>
    cases t with
    | mapping entries =>
      obtain ⟨inner, there, found⟩ := Option.bind_eq_some_iff.mp found
      exact ih (nested.1.valueAt there) found
    | _ => cases found

/-- Nothing stands at the path, and on the way to it there are tables only. -/
structure Passes (t : Tree) (path : List Tree) : Prop where
  nothing : atPath? path t = none
  tables : ∀ before value, before <+: path → before ≠ path → atPath? before t = some value →
    isTable value = true

theorem atPath?_of_leaf {t : Tree} (leaf : ∀ entries, t ≠ .mapping entries) (key : Tree)
    (path : List Tree) : atPath? (key :: path) t = none := by
  rw [atPath?]
  exact leaf

theorem not_passes_nil (t : Tree) : ¬Passes t [] := fun passes => nomatch passes.nothing

theorem not_passes_of_leaf {t : Tree} (leaf : isTable t = false) (key : Tree) (path : List Tree) :
    ¬Passes t (key :: path) := fun passes =>
  absurd (passes.tables [] t List.nil_prefix nofun rfl) (by rw [leaf]; exact Bool.false_ne_true)

/-- A table lets a path through if it does not have its first key, or has a value there that lets
the rest of the path through. -/
theorem passes_mapping :
    Passes (.mapping entries) (key :: path) ↔ ∀ value ∈ valueAt key entries, Passes value path := by
  constructor
  · intro passes value found
    have found : valueAt key entries = some value := found
    have inside (before : List Tree) :
        atPath? (key :: before) (.mapping entries) = atPath? before value := by
      rw [atPath?, found, Option.bind_some]
    refine ⟨(inside path).symm.trans passes.nothing, fun before v front other there => ?_⟩
    exact passes.tables (key :: before) v ((List.prefix_cons_inj key).mpr front)
      (fun same => other (List.cons.inj same).2) ((inside before).trans there)
  · intro all
    refine ⟨?_, fun before v front other there => ?_⟩
    · rw [atPath?, Option.bind_eq_none_iff]
      exact fun value found => (all value found).nothing
    · cases before with
      | nil =>
        cases there
        rfl
      | cons first before =>
        obtain ⟨rfl, further⟩ := List.cons_prefix_cons.mp front
        obtain ⟨value, found, there⟩ := Option.bind_eq_some_iff.mp there
        exact (all value found).tables before v further (fun same => other (same ▸ rfl)) there

end SessionPlan.Settings
