import SessionPlan.Text.Search
import Mathlib.Data.List.Infix

/-! Replacing as cutting: a text is cut at the occurrences of a word, and the new text goes between
the pieces. A value in which no occurrence can have a part stays whole, whatever stands around
it. -/
namespace SessionPlan.Text

/-! ### Two ways to cut a text -/

section
variable {before value after left word right : List Char}

theorem prefix_of_cut (whole : before ++ value ++ after = left ++ word ++ right)
    (early : left.length + word.length ≤ before.length) : left ++ word <+: before := by
  refine List.prefix_of_prefix_length_le ⟨right, rfl⟩ ?_ (by simpa using early)
  rw [← whole, List.append_assoc]
  exact List.prefix_append _ _

theorem suffix_of_cut (whole : before ++ value ++ after = left ++ word ++ right)
    (late : before.length + value.length ≤ left.length) : word ++ right <:+ after := by
  have lengths := congrArg List.length whole
  simp only [List.length_append] at lengths
  refine List.suffix_of_suffix_length_le ⟨left, by rw [← List.append_assoc]⟩ ?_
    (by rw [List.length_append]; omega)
  rw [← whole]
  exact List.suffix_append _ _

theorem infix_of_cut (whole : before ++ value ++ after = left ++ word ++ right)
    (begins : before.length ≤ left.length)
    (ends : left.length + word.length ≤ before.length + value.length) : word <:+: value := by
  obtain ⟨between, rfl⟩ : before <+: left :=
    List.prefix_of_prefix_length_le ⟨value ++ after, by rw [← List.append_assoc, whole]⟩
      ⟨word ++ right, by rw [List.append_assoc]⟩ begins
  have rest : value ++ after = between ++ word ++ right := by simpa using whole
  have inside : between ++ word <+: value :=
    List.prefix_of_prefix_length_le ⟨right, rest.symm⟩ (List.prefix_append _ _) (by
      rw [List.length_append] at *
      omega)
  exact (List.suffix_append between word).isInfix.trans inside.isInfix

theorem mem_of_getElem?_cut {i : Nat} {c : Char} (begins : left.length ≤ i)
    (ends : i < left.length + word.length) (here : (left ++ word ++ right)[i]? = some c) :
    c ∈ word := by
  rw [List.getElem?_append_left (by simpa using ends), List.getElem?_append_right begins] at here
  exact List.mem_of_getElem? here

end

/-! ### Values that stay whole -/

/-- Wherever `word` stands in a text around the value, it stands before the value or after it. -/
def Inert (word value : List Char) : Prop :=
  ∀ before after left right, before ++ value ++ after = left ++ word ++ right →
    left ++ word <+: before ∨ word ++ right <:+ after

/-- A value is inert if it neither begins nor ends with a character of the word and does not hold
the word itself: an occurrence that has a part in it would have one of its ends, or lie in it. -/
theorem inert_of_ends {word value : List Char} {first last : Char}
    (starts : value.head? = some first) (ends : value.getLast? = some last)
    (first_apart : first ∉ word) (last_apart : last ∉ word) (absent : ¬word <:+: value) :
    Inert word value := by
  intro before after left right whole
  have ne_nil : value ≠ [] := by rintro rfl; cases starts
  have some_char : 0 < value.length := List.length_pos_iff.mpr ne_nil
  have first_at : (before ++ value ++ after)[before.length]? = some first := by
    rw [List.append_assoc, List.getElem?_append_right (Nat.le_refl _), Nat.sub_self,
      List.getElem?_append_left some_char, ← List.head?_eq_getElem?, starts]
  have last_at : (before ++ value ++ after)[before.length + (value.length - 1)]? = some last := by
    rw [List.append_assoc, List.getElem?_append_right (by omega), Nat.add_sub_cancel_left,
      List.getElem?_append_left (by omega), ← List.getLast?_eq_getElem?, ends]
  rw [whole] at first_at last_at
  by_cases early : left.length + word.length ≤ before.length
  · exact .inl (prefix_of_cut whole early)
  by_cases late : before.length + value.length ≤ left.length
  · exact .inr (suffix_of_cut whole late)
  exfalso
  by_cases inFirst : left.length ≤ before.length
  · exact first_apart (mem_of_getElem?_cut inFirst (by omega) first_at)
  by_cases inLast : before.length + value.length < left.length + word.length
  · exact last_apart (mem_of_getElem?_cut (by omega) (by omega) last_at)
  exact absent (infix_of_cut whole (by omega) (by omega))

/-- No occurrence begins in a value, or in what is left of it. -/
theorem Inert.not_begins {word value : List Char} (inert : Inert word value) (some_char : word ≠ [])
    {value' : List Char} (ne_nil : value' ≠ []) (part : value' <:+ value) (after : List Char) :
    ¬word <+: value' ++ after := by
  rintro ⟨right, whole⟩
  obtain ⟨front, rfl⟩ := part
  have around : [] ++ (front ++ value') ++ after = front ++ word ++ right := by
    simp [List.append_assoc, ← whole]
  have characters := List.length_pos_iff.mpr ne_nil
  have lengths := congrArg List.length whole
  rcases inert _ _ _ _ around with early | late
  · simp [some_char] at early
  · have short := late.length_le
    simp only [List.length_append] at lengths short
    omega

theorem replaceFrom_value {word value : List Char} (inert : Inert word value)
    (some_char : word ≠ []) (new : List Char) {part : List Char} (isPart : part <:+ value)
    (after : List Char) :
    replaceFrom word new 0 (part ++ after) = part ++ replaceFrom word new 0 after := by
  induction part with
  | nil => rfl
  | cons c rest ih =>
    have absent : ¬word.isPrefixOf (c :: (rest ++ after)) = true := fun found =>
      inert.not_begins some_char (List.cons_ne_nil c rest) isPart after
        (List.isPrefixOf_iff_prefix.mp found)
    rw [List.cons_append, replaceFrom, if_neg absent, ih ((List.suffix_cons c rest).trans isPart),
      List.cons_append]

/-- Before the value an occurrence begins just where it did without the value. -/
theorem Inert.isPrefixOf_around {word value : List Char} (inert : Inert word value)
    (before after : List Char) (ne_nil : before ≠ []) :
    word.isPrefixOf (before ++ value ++ after) = word.isPrefixOf before := by
  rw [Bool.eq_iff_iff, List.isPrefixOf_iff_prefix, List.isPrefixOf_iff_prefix]
  constructor
  · rintro ⟨right, whole⟩
    rcases inert before after [] right whole.symm with early | late
    · exact early
    · have characters := List.length_pos_iff.mpr ne_nil
      have lengths := congrArg List.length whole
      have short := late.length_le
      simp only [List.length_append] at lengths short
      omega
  · intro early
    rw [List.append_assoc]
    exact early.trans (List.prefix_append before (value ++ after))

theorem replaceFrom_around {word value : List Char} (inert : Inert word value)
    (some_char : word ≠ []) (new before after : List Char) (skip : Nat)
    (inside : skip ≤ before.length) :
    replaceFrom word new skip (before ++ value ++ after) =
      replaceFrom word new skip before ++ value ++ replaceFrom word new 0 after := by
  induction before generalizing skip with
  | nil =>
    obtain rfl : skip = 0 := Nat.le_zero.mp inside
    exact replaceFrom_value inert some_char new List.suffix_rfl after
  | cons c rest ih =>
    have here := inert.isPrefixOf_around (c :: rest) after (List.cons_ne_nil c rest)
    rw [List.cons_append, List.cons_append] at here ⊢
    cases skip with
    | succ skip => exact ih skip (Nat.le_of_succ_le_succ inside)
    | zero =>
      simp only [replaceFrom, here]
      split
      · rename_i found
        have fits := (List.isPrefixOf_iff_prefix.mp found).length_le
        rw [ih (word.length - 1) (by simp only [List.length_cons] at fits; omega)]
        simp [List.append_assoc]
      · rw [ih 0 (Nat.zero_le _)]
        simp

/-! ### Pieces -/

/-- The pieces of a text between the occurrences of `word`, found from left to right; `skip` counts
the characters that belong to an occurrence already found. -/
def pieces (word : List Char) : Nat → List Char → List (List Char)
  | _, [] => [[]]
  | skip + 1, _ :: rest => pieces word skip rest
  | 0, c :: rest =>
    if word.isPrefixOf (c :: rest) then [] :: pieces word (word.length - 1) rest
    else (pieces word 0 rest).modifyHead (c :: ·)

theorem pieces_ne_nil (word : List Char) (skip : Nat) (s : List Char) :
    pieces word skip s ≠ [] := by
  fun_induction pieces word skip s <;> simp_all

theorem replaceFrom_eq_intercalate (word new : List Char) (skip : Nat) (s : List Char) :
    replaceFrom word new skip s = new.intercalate (pieces word skip s) := by
  fun_induction pieces word skip s with
  | case1 skip => cases skip <;> rfl
  | case2 skip c rest ih => exact ih
  | case3 c rest found ih =>
    rw [replaceFrom, if_pos found, ih, List.intercalate_cons_of_ne_nil (pieces_ne_nil _ _ _),
      List.nil_append]
  | case4 c rest absent ih =>
    rw [replaceFrom, if_neg absent, ih]
    obtain ⟨first, others, cut⟩ := List.exists_cons_of_ne_nil (pieces_ne_nil word 0 rest)
    rw [cut, List.modifyHead_cons]
    cases others with
    | nil => simp
    | cons next rest => simp [List.intercalate_cons_cons]

/-! ### Lengths -/

theorem length_le_replaceFrom {word new : List Char} (some_char : word ≠ [])
    (longer : word.length ≤ new.length) (skip : Nat) (s : List Char) :
    (s.drop skip).length ≤ (replaceFrom word new skip s).length := by
  have characters := List.length_pos_iff.mpr some_char
  fun_induction replaceFrom word new skip s with
  | case1 skip => simp
  | case2 skip c rest ih => exact ih
  | case3 c rest found ih =>
    rw [List.length_drop] at ih
    simp only [List.drop_zero, List.length_cons, List.length_append]
    omega
  | case4 c rest absent ih => simpa using ih

theorem length_lt_replaceFrom {word new : List Char} (some_char : word ≠ [])
    (longer : word.length < new.length) {s : List Char} (found : word <:+: s) :
    s.length < (replaceFrom word new 0 s).length := by
  have characters := List.length_pos_iff.mpr some_char
  induction s with
  | nil => exact absurd (List.infix_nil.mp found) some_char
  | cons c rest ih =>
    rw [replaceFrom]
    split
    · have others := length_le_replaceFrom some_char (Nat.le_of_lt longer) (word.length - 1) rest
      rw [List.length_drop] at others
      rw [List.length_append, List.length_cons]
      omega
    · rename_i absent
      have later : word <:+: rest := by
        rcases List.infix_cons_iff.mp found with here | later
        · exact absurd (List.isPrefixOf_iff_prefix.mpr here) absent
        · exact later
      have others := ih later
      rw [List.length_cons, List.length_cons]
      omega

end SessionPlan.Text
