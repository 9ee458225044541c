import SessionPlan.Proofs.Tree.Entries
import SessionPlan.Proofs.Variables.Expanded

/-! Expansion of trees that end somewhere. -/
namespace SessionPlan

namespace Tree

/-- A key without parts. -/
def IsPlainKey : Tree → Prop
  | .list _ | .tuple _ | .mapping _ | .set _ | .cycle => False
  | _ => True

mutual

/-- Nothing in the tree holds itself, and all keys are plain. Those of a mapping are all
different. -/
def IsPlain : Tree → Prop
  | .cycle => False
  | .list items | .tuple items => ArePlain items
  | .mapping entries =>
    HavePlain entries ∧ entries.Pairwise fun first later => same first.1 later.1 = false
  | _ => True

def ArePlain : List Tree → Prop
  | [] => True
  | x :: xs => IsPlain x ∧ ArePlain xs

def HavePlain : List (Tree × Tree) → Prop
  | [] => True
  | (key, value) :: rest => IsPlainKey key ∧ IsPlain value ∧ HavePlain rest

end

mutual

/-- All keys in the tree are plain, and different. It may hold itself. -/
def KeysPlain : Tree → Prop
  | .list items | .tuple items => AllKeysPlain items
  | .mapping entries =>
    EntryKeysPlain entries ∧ entries.Pairwise fun first later => same first.1 later.1 = false
  | _ => True

def AllKeysPlain : List Tree → Prop
  | [] => True
  | x :: xs => KeysPlain x ∧ AllKeysPlain xs

def EntryKeysPlain : List (Tree × Tree) → Prop
  | [] => True
  | (key, value) :: rest => IsPlainKey key ∧ KeysPlain value ∧ EntryKeysPlain rest

end

theorem allKeysPlain_iff {items : List Tree} :
    AllKeysPlain items ↔ ∀ item ∈ items, KeysPlain item := by
  induction items with
  | nil => simp [AllKeysPlain]
  | cons item rest ih => simp [AllKeysPlain, ih]

theorem entryKeysPlain_iff {entries : List (Tree × Tree)} :
    EntryKeysPlain entries ↔ ∀ entry ∈ entries, IsPlainKey entry.1 ∧ KeysPlain entry.2 := by
  induction entries with
  | nil => simp [EntryKeysPlain]
  | cons entry rest ih => simp [EntryKeysPlain, ih, and_assoc]

theorem havePlain_iff {entries : List (Tree × Tree)} :
    HavePlain entries ↔ ∀ entry ∈ entries, IsPlainKey entry.1 ∧ IsPlain entry.2 := by
  induction entries with
  | nil => simp [HavePlain]
  | cons entry rest ih => simp [HavePlain, ih, and_assoc]

theorem IsPlainKey.keysPlain {key : Tree} (plain : key.IsPlainKey) : key.KeysPlain := by
  cases key <;> trivial

theorem IsPlainKey.isKey {key : Tree} (plain : key.IsPlainKey) :
    key.isKey = true ∧ key.IsDocument := by
  cases key <;> first | exact plain.elim | exact ⟨rfl, trivial⟩

mutual

/-- A tree whose keys are plain stops expansion only with a problem, or by holding itself. -/
theorem expand_endless (v : Variables) {t : Tree} (plain : t.KeysPlain) :
    FailsOnly (Failure.Among fun fault => fault = .endless ∧ ¬t.IsPlain) (t.expand v) := by
  cases t with
  | cycle => exact .error ⟨rfl, id⟩
  | list items => exact (expandItems_endless v plain).bind fun _ _ => .ok _
  | tuple items => exact (expandItems_endless v plain).bind fun _ _ => .ok _
  | mapping entries =>
    refine ((@expandEntries_endless v [] entries nofun plain.1 plain.2).mono ?_).bind
      fun _ _ => .ok _
    exact Failure.Among.mono fun _ h => ⟨h.1, fun all => h.2 all.1⟩
  | _ => exact .ok _

theorem expandItems_endless (v : Variables) {items : List Tree} (plain : AllKeysPlain items) :
    FailsOnly (Failure.Among fun fault => fault = .endless ∧ ¬ArePlain items)
      (expandItems v items) := by
  match items with
  | [] => exact .ok _
  | x :: xs =>
    refine ((expand_endless v plain.1).mono ?_).bind fun _ _ =>
      ((expandItems_endless v plain.2).mono ?_).bind fun _ _ => .ok _
    · exact Failure.Among.mono fun _ h => ⟨h.1, fun all => h.2 all.1⟩
    · exact Failure.Among.mono fun _ h => ⟨h.1, fun all => h.2 all.2⟩

theorem expandEntries_endless (v : Variables) {seen entries : List (Tree × Tree)}
    (known : AllSeen v seen entries) (plain : EntryKeysPlain entries)
    (apart : entries.Pairwise fun first later => same first.1 later.1 = false) :
    FailsOnly (Failure.Among fun fault => fault = .endless ∧ ¬HavePlain entries)
      (expandEntries v seen entries) := by
  match entries with
  | [] => exact .ok _
  | (key, value) :: rest =>
    obtain ⟨plainKey, plainValue, plainRest⟩ := plain
    obtain ⟨differ, others⟩ := List.pairwise_cons.mp apart
    obtain ⟨expanded, -, isKey, -⟩ := expand_key (v := v) plainKey.isKey.1 plainKey.isKey.2
    rw [expandEntries, expanded, ok_bind]
    simp only [isKey, Bool.not_true, Bool.false_eq_true, if_false]
    rcases known.lookup plainKey.isKey with ⟨first, second, new, rfl, -, -, met⟩ | ⟨fresh, -⟩
    · -- only texts can meet, and they can be written
      rw [met]
      exact .reject trivial rfl
    · rw [fresh]
      have further := known.cons plainKey.isKey differ
      refine ((expand_endless v plainValue).mono ?_).bind fun _ _ =>
        ((expandEntries_endless v further plainRest others).mono ?_).bind fun _ _ => .ok _
      · exact Failure.Among.mono fun _ h => ⟨h.1, fun all => h.2 all.2.1⟩
      · exact Failure.Among.mono fun _ h => ⟨h.1, fun all => h.2 all.2.2⟩

end

mutual

theorem IsPlain.keysPlain {t : Tree} (plain : t.IsPlain) : t.KeysPlain := by
  cases t with
  | list items => exact ArePlain.keysPlain plain
  | tuple items => exact ArePlain.keysPlain plain
  | mapping entries => exact ⟨HavePlain.keysPlain plain.1, plain.2⟩
  | _ => trivial

theorem ArePlain.keysPlain {items : List Tree} (plain : ArePlain items) : AllKeysPlain items := by
  match items with
  | [] => trivial
  | x :: xs => exact ⟨plain.1.keysPlain, ArePlain.keysPlain plain.2⟩

theorem HavePlain.keysPlain {entries : List (Tree × Tree)} (plain : HavePlain entries) :
    EntryKeysPlain entries := by
  match entries with
  | [] => trivial
  | (key, value) :: rest => exact ⟨plain.1, plain.2.1.keysPlain, HavePlain.keysPlain plain.2.2⟩

end

/-- No fault lies in expansion. -/
theorem expand_failsOnly {faults : Fault → Prop} (v : Variables) {t : Tree} (plain : t.IsPlain) :
    FailsOnly (Failure.Among faults) (t.expand v) :=
  (expand_endless v plain.keysPlain).mono (Failure.Among.mono fun _ h => (h.2 plain).elim)

end Tree
end SessionPlan
