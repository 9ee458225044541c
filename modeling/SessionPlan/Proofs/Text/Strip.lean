import SessionPlan.Text.Blank
import Mathlib.Data.List.DropRight

/-! Stripping a text once is enough: what is left neither begins nor ends with a blank. Something is
left of every text that has more than blanks. -/
namespace SessionPlan.Text

theorem dropTrailingBlanks_eq (s : List Char) : dropTrailingBlanks s = s.rdropWhile isBlank := rfl

/-- Trailing blanks can be dropped without a leading one coming to light. -/
theorem dropBlanks_dropTrailingBlanks {s : List Char} (settled : dropBlanks s = s) :
    dropBlanks (dropTrailingBlanks s) = dropTrailingBlanks s := by
  rw [dropTrailingBlanks_eq]
  obtain ⟨trailing, whole⟩ := List.rdropWhile_prefix isBlank (l := s)
  cases kept : s.rdropWhile isBlank with
  | nil => rfl
  | cons a rest =>
    have first : ¬ isBlank a := by
      rw [kept] at whole
      have head := List.dropWhile_eq_self_iff.mp settled
      subst whole
      exact head (by simp)
    simp [dropBlanks, first]

theorem dropTrailingBlanks_append (s t : List Char) : dropTrailingBlanks (s ++ t) =
    if t.all isBlank then dropTrailingBlanks s else s ++ dropTrailingBlanks t := by
  have gone : (t.reverse.dropWhile isBlank).isEmpty = t.all isBlank := by
    rw [Bool.eq_iff_iff, List.isEmpty_iff, List.dropWhile_eq_nil_iff, List.all_eq_true]
    simp
  rw [dropTrailingBlanks, dropTrailingBlanks, dropTrailingBlanks, dropTrailingWhile,
    dropTrailingWhile, dropTrailingWhile, List.reverse_append, List.dropWhile_append, gone]
  split <;> simp

/-- A text that neither begins nor ends with a blank. -/
structure IsTrimmed (s : String) : Prop where
  first : ∀ c ∈ s.toList.head?, isBlank c = false
  last : ∀ c ∈ s.toList.getLast?, isBlank c = false

theorem isTrimmed_iff {s : String} :
    IsTrimmed s ↔ s.toList.head?.all (!isBlank ·) ∧ s.toList.getLast?.all (!isBlank ·) := by
  simp only [Option.all_eq_true, Bool.not_eq_eq_eq_not, Bool.not_true]
  exact ⟨fun ⟨first, last⟩ => ⟨first, last⟩, fun ⟨first, last⟩ => ⟨first, last⟩⟩

instance (s : String) : Decidable (IsTrimmed s) :=
  decidable_of_iff' _ isTrimmed_iff

theorem isTrimmed_of_not_blank {s : String} (h : ∀ c ∈ s.toList, isBlank c = false) :
    IsTrimmed s :=
  ⟨fun c first => h c (List.mem_of_head? first), fun c last => h c (List.mem_of_getLast? last)⟩

theorem IsTrimmed.strip_eq {s : String} (h : IsTrimmed s) : strip s = s := by
  have front : dropBlanks s.toList = s.toList := by
    refine List.dropWhile_eq_self_iff.mpr fun some_char => ?_
    simp [h.first _ (List.head?_eq_getElem? ▸ List.getElem?_eq_getElem some_char)]
  have back : dropTrailingBlanks s.toList = s.toList := by
    refine List.rdropWhile_eq_self_iff.mpr fun some_char => ?_
    simp [h.last _ (List.getLast?_eq_getLast_of_ne_nil some_char)]
  rw [strip, front, back, String.ofList_toList]

/-- What is left of a text begins and ends with no blank. -/
theorem isTrimmed_strip (s : String) : IsTrimmed (strip s) := by
  have front : dropBlanks (strip s).toList = (strip s).toList := by
    rw [strip, String.toList_ofList]
    exact dropBlanks_dropTrailingBlanks (List.dropWhile_idempotent isBlank _)
  have back : dropTrailingBlanks (strip s).toList = (strip s).toList := by
    rw [strip, String.toList_ofList, dropTrailingBlanks_eq, dropTrailingBlanks_eq,
      List.rdropWhile_idempotent]
  constructor
  · intro c first
    obtain ⟨some_char, own⟩ := List.getElem?_eq_some_iff.mp (List.head?_eq_getElem? ▸ first)
    rw [← own]
    exact Bool.eq_false_iff.mpr (List.dropWhile_eq_self_iff.mp front some_char)
  · intro c last
    obtain ⟨some_char, own⟩ := List.mem_getLast?_eq_getLast last
    rw [own]
    exact Bool.eq_false_iff.mpr (List.rdropWhile_eq_self_iff.mp back some_char)

theorem stripEnd_ne_empty {line : String} (seen : isBlankText line = false) :
    stripEnd line ≠ "" := by
  intro empty
  have gone : dropTrailingBlanks line.toList = [] := String.ofList_inj.mp empty
  rw [dropTrailingBlanks_eq, List.rdropWhile_eq_nil_iff, ← List.all_eq_true] at gone
  exact Bool.noConfusion (gone.symm.trans seen)

end SessionPlan.Text
