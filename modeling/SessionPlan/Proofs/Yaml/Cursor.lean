import SessionPlan.Proofs.Failure
import SessionPlan.Proofs.Lists
import SessionPlan.Yaml.Scalar

/-! Where a place in a text leads to. Whatever is stepped over, what is left to be read is always
an end of the text. -/
namespace SessionPlan.Yaml.Cursor

@[simp] theorem rest_next (c : Cursor) : c.next.rest = c.rest.tail := by
  unfold next
  split
  · rename_i nothing
    rw [nothing]
    rfl
  · rename_i more
    rw [more]
    split
    · rfl
    · split
      · rfl
      · split <;> rfl

@[simp] theorem rest_forward (c : Cursor) (n : Nat) : (c.forward n).rest = c.rest.drop n := by
  induction n generalizing c with
  | zero => rfl
  | succ n ih => rw [forward, ih, rest_next, List.drop_tail]

/-- Only the end of the text looks like the character zero, which no text may hold. -/
theorem rest_eq_cons {c : Cursor} {ch : Char} (seen : c.peek = ch) (some : ch ≠ '\x00') :
    c.rest = ch :: c.next.rest := by
  rw [rest_next]
  unfold peek at seen
  cases left : c.rest with
  | nil =>
    rw [left] at seen
    exact absurd seen.symm some
  | cons d rest =>
    rw [left] at seen
    exact congrArg (· :: rest) seen

theorem peek_of_cons {c : Cursor} {ch : Char} {s : List Char} (h : c.rest = ch :: s) :
    c.peek = ch := by
  rw [peek, h]
  rfl

theorem peekAt_one_of_cons {c : Cursor} {ch : Char} {s : List Char} (h : c.rest = ch :: s) :
    c.peekAt 1 = s.headD '\x00' := by
  rw [peekAt, h]
  rfl

/-! ### Positions -/

theorem forward_add (c : Cursor) (m n : Nat) : c.forward (m + n) = (c.forward m).forward n := by
  induction m generalizing c with
  | zero => rw [Nat.zero_add, forward]
  | succ m ih => rw [Nat.succ_add, forward, forward, ih]

theorem rest_forward_length {c : Cursor} {s t : List Char} (h : c.rest = s ++ t) :
    (c.forward s.length).rest = t := by
  rw [rest_forward, h, List.drop_left]

theorem takeWhile_append_rest (c : Cursor) (p : Char → Bool) :
    (c.takeWhile p).1 ++ (c.takeWhile p).2.rest = c.rest := by
  rw [takeWhile, rest_forward, drop_takeWhile]
  exact List.takeWhile_append_dropWhile

theorem line_le_next (c : Cursor) : c.line ≤ c.next.line := by
  unfold next
  split
  · exact Nat.le_refl _
  · split
    · exact Nat.le_refl _
    · split
      · exact Nat.le_succ _
      · split <;> exact Nat.le_refl _

theorem line_le_forward (c : Cursor) (n : Nat) : c.line ≤ (c.forward n).line := by
  induction n generalizing c with
  | zero => exact Nat.le_refl _
  | succ n ih => exact Nat.le_trans (line_le_next c) (ih c.next)

theorem index_next_le (c : Cursor) : c.next.index ≤ c.index + 1 := by
  unfold next
  split
  · exact Nat.le_succ _
  · split
    · exact Nat.le_refl _
    · split
      · exact Nat.le_refl _
      · split <;> exact Nat.le_refl _

theorem index_forward_le (c : Cursor) (n : Nat) : (c.forward n).index ≤ c.index + n := by
  induction n generalizing c with
  | zero => exact Nat.le_refl _
  | succ n ih =>
    have one := index_next_le c
    have more := ih c.next
    rw [forward]
    omega

/-- The line goes on where no break is stepped over. -/
theorem next_of_unbroken {c : Cursor} {ch : Char} {s : List Char} (h : c.rest = ch :: s)
    (unbroken : isBreak ch = false) : c.next.line = c.line ∧ c.column ≤ c.next.column := by
  have return_ : ch ≠ '\r' := by rintro rfl; revert unbroken; decide
  rw [next, h]
  dsimp only
  rw [if_neg (fun pair => return_ pair.1), unbroken, if_neg Bool.false_ne_true]
  split
  · exact ⟨rfl, Nat.le_refl _⟩
  · exact ⟨rfl, Nat.le_succ _⟩

theorem forward_of_unbroken {c : Cursor} {s t : List Char} (h : c.rest = s ++ t)
    (unbroken : ∀ ch ∈ s, isBreak ch = false) :
    (c.forward s.length).line = c.line ∧ c.column ≤ (c.forward s.length).column := by
  induction s generalizing c with
  | nil => exact ⟨rfl, Nat.le_refl _⟩
  | cons ch s ih =>
    obtain ⟨first, others⟩ := List.forall_mem_cons.mp unbroken
    obtain ⟨line, column⟩ := next_of_unbroken (s := s ++ t) h first
    obtain ⟨line', column'⟩ := ih (c := c.next) (by rw [rest_next, h]; rfl) others
    exact ⟨line'.trans line, Nat.le_trans column column'⟩

theorem next_of_newLine {c : Cursor} {s : List Char} (h : c.rest = '\n' :: s) :
    c.next = ⟨s, c.index + 1, c.line + 1, 0⟩ := by
  rw [next, h]
  simp [isBreak]

theorem forward_spaces {c : Cursor} {n : Nat} {s : List Char} (h : c.rest = List.replicate n ' ' ++ s) :
    c.forward n = ⟨s, c.index + n, c.line, c.column + n⟩ := by
  induction n generalizing c with
  | zero =>
    obtain ⟨rest, index, line, column⟩ := c
    simp only [List.replicate_zero, List.nil_append] at h
    rw [h]
    rfl
  | succ n ih =>
    have space : c.next = ⟨List.replicate n ' ' ++ s, c.index + 1, c.line, c.column + 1⟩ := by
      rw [next, h]
      rfl
    rw [forward, space, ih rfl]
    simp [Nat.add_comm, Nat.add_left_comm]

/-! ### Breaks -/

/-- What a line break counts as. -/
def seenBreak (ch : Char) : Char := if ch = '\u2028' ∨ ch = '\u2029' then ch else '\n'

theorem lineBreak?_of_break {c : Cursor} {ch : Char} {s : List Char} (h : c.rest = ch :: s)
    (ends : isBreak ch = true) (return_ : ch ≠ '\r') :
    c.lineBreak? = some (seenBreak ch, c.next) := by
  rw [lineBreak?, h]
  unfold seenBreak
  split
  · rename_i same
    exact absurd (List.cons.inj same).1 return_
  · rename_i same
    obtain ⟨rfl, -⟩ := List.cons.inj same
    split
    · rfl
    · rfl
  · rename_i same
    cases same

theorem lineBreak?_of_solid {c : Cursor} (solid : ∀ ch ∈ c.rest.head?, isBreak ch = false) :
    c.lineBreak? = none := by
  unfold lineBreak?
  split
  · rename_i rest
    rw [rest] at solid
    exact absurd (solid '\r' rfl) (by decide)
  · rename_i ch s _ rest
    rw [rest] at solid
    have clear := solid ch rfl
    have line : ¬(ch = '\u2028' ∨ ch = '\u2029') := by
      rintro (rfl | rfl) <;> revert clear <;> decide
    rw [if_neg line, clear]
    rfl
  · rfl

/-- A run ends before the first character that does not belong to it. -/
theorem takeWhile_append {c : Cursor} {p : Char → Bool} {s t : List Char} (h : c.rest = s ++ t)
    (inside : ∀ ch ∈ s, p ch = true) (outside : ∀ ch ∈ t.head?, p ch = false) :
    c.takeWhile p = (s, c.forward s.length) := by
  have run : c.rest.takeWhile p = s := by
    rw [h, List.takeWhile_append_of_pos inside]
    cases t with
    | nil => simp
    | cons ch t => simp [outside ch rfl]
  rw [takeWhile, run]

/-- What is left to be read is an end of the text. -/
def Within (text : List Char) (c : Cursor) : Prop := c.rest <:+ text

namespace Within
variable {text : List Char} {c : Cursor}

theorem start (text : List Char) : (Cursor.start text).Within text := List.suffix_refl text

theorem next (h : c.Within text) : c.next.Within text := by
  rw [Within, rest_next]
  exact (List.tail_suffix _).trans h

theorem forward (h : c.Within text) (n : Nat) : (c.forward n).Within text := by
  rw [Within, rest_forward]
  exact (List.drop_suffix _ _).trans h

theorem takeWhile (h : c.Within text) (p : Char → Bool) : (c.takeWhile p).2.Within text :=
  h.forward _

theorem skipWhile (h : c.Within text) (p : Char → Bool) : (c.skipWhile p).Within text :=
  h.takeWhile p

theorem skipSpaces (h : c.Within text) : c.skipSpaces.Within text := h.skipWhile _

theorem skipToLineEnd (h : c.Within text) : c.skipToLineEnd.Within text := h.skipWhile _

theorem lineBreak? (h : c.Within text) {ch : Char} {after : Cursor}
    (found : c.lineBreak? = some (ch, after)) : after.Within text := by
  unfold Cursor.lineBreak? at found
  split at found
  · cases found
    exact h.forward 2
  · split at found
    · cases found
      exact h.next
    · split at found
      · cases found
        exact h.next
      · cases found
  · cases found

theorem skipBreak (h : c.Within text) : c.skipBreak.Within text := by
  unfold Cursor.skipBreak
  cases found : c.lineBreak? with
  | none => exact h
  | some found' => exact h.lineBreak? found

end Within
end SessionPlan.Yaml.Cursor
