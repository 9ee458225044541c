import SessionPlan.Proofs.Text.Strip
import SessionPlan.Text.Integer

/-! Digits of every script. A text of digits is a number just where each of them is a decimal. -/
namespace SessionPlan.Text

/-- Where digits are found: none of them is a blank, a sign or an underscore. -/
theorem isDigit_code {c : Char} (digit : isDigit c = true) :
    (0x30 ≤ c.toNat ∧ c.toNat < 0x3a) ∨ (0xa0 < c.toNat ∧ c.toNat < 0x1680) ∨
      (0x1680 < c.toNat ∧ c.toNat < 0x2000) ∨ (0x205f < c.toNat ∧ c.toNat < 0x3000) ∨
      0x3000 < c.toNat := by
  have runs : ∀ first ∈ zeroDigits, first = 0x30 ∨ (0xa0 < first ∧ first + 10 < 0x1680) ∨
      (0x1680 < first ∧ first + 10 < 0x2000) ∨ 0x3000 < first := by decide
  have lone : ∀ range ∈ loneDigitRanges, (0xa0 < range.1 ∧ range.2 < 0x1680) ∨
      (0x1680 < range.1 ∧ range.2 < 0x2000) ∨ (0x205f < range.1 ∧ range.2 < 0x3000) ∨
      0x3000 < range.1 := by decide
  rw [isDigit, Bool.or_eq_true] at digit
  rcases digit with decimal | other
  · rw [isDecimal, decimalValue?, Option.isSome_map] at decimal
    obtain ⟨first, found⟩ := Option.isSome_iff_exists.mp decimal
    have inside := List.find?_some found
    have run := runs first (List.mem_of_find?_eq_some found)
    simp only [Bool.and_eq_true, decide_eq_true_eq] at inside
    omega
  · obtain ⟨range, known, inside⟩ := List.any_eq_true.mp other
    have place := lone range known
    simp only [Bool.and_eq_true, decide_eq_true_eq] at inside
    omega

theorem isDigit_not_blank {c : Char} (digit : isDigit c = true) : isBlank c = false := by
  have code := isDigit_code digit
  simp only [isBlank, Bool.or_eq_false_iff, Bool.and_eq_false_iff, decide_eq_false_iff_not,
    beq_eq_false_iff_ne]
  omega

theorem isDigit_unsigned {c : Char} (digit : isDigit c = true) : c ≠ '_' ∧ c ≠ '-' ∧ c ≠ '+' := by
  refine ⟨?_, ?_, ?_⟩
  all_goals
    rintro rfl
    exact absurd digit (by decide)

/-- The number that decimals write, read from the left, when `value` has been read before. -/
def decimalsValue (value : Nat) (digits : List Char) : Nat :=
  digits.foldl (fun v c => 10 * v + (decimalValue? c).getD 0) value

theorem digitsValue?_digits {digits : List Char} (h : ∀ c ∈ digits, isDigit c = true) (value : Nat)
    (afterDigit : Bool) (some_digit : digits ≠ [] ∨ afterDigit = true) :
    digitsValue? value afterDigit digits =
      if digits.all isDecimal then some (decimalsValue value digits) else none := by
  induction digits generalizing value afterDigit with
  | nil => simpa [digitsValue?, decimalsValue] using some_digit
  | cons c rest ih =>
    have plain := (isDigit_unsigned (h c List.mem_cons_self)).1
    have later (value : Nat) := ih (fun d member => h d (List.mem_cons_of_mem _ member)) value true
      (.inr rfl)
    cases read : decimalValue? c with
    | none => simp [digitsValue?, plain, isDecimal, read]
    | some d => simp [digitsValue?, plain, isDecimal, read, later, decimalsValue]

theorem withoutMargins_of_solid {s : List Char} (solid : ∀ c ∈ s, isBlank c = false) :
    withoutMargins s = s := by
  have inner : ∀ c ∈ s, isMargin c = false := fun c member => by
    rw [isMargin, solid c member, Bool.false_and]
  have front : s.dropWhile isMargin = s :=
    List.dropWhile_eq_self_iff.mpr fun _ => by simp [inner _ (List.getElem_mem _)]
  have back : s.rdropWhile isMargin = s :=
    List.rdropWhile_eq_self_iff.mpr fun _ => by simp [inner _ (List.getLast_mem _)]
  rw [withoutMargins, front]
  exact back

theorem withoutMargins_digits {digits : List Char} (h : ∀ c ∈ digits, isDigit c = true) :
    withoutMargins digits = digits :=
  withoutMargins_of_solid fun c member => isDigit_not_blank (h c member)

theorem digitCount?_digits {digits : List Char} (h : ∀ c ∈ digits, isDigit c = true) (count : Nat)
    (afterDigit : Bool) : digitCount? count afterDigit digits =
      if afterDigit = false ∧ digits.takeWhile isDecimal = [] then none
      else some (count + (digits.takeWhile isDecimal).length) := by
  induction digits generalizing count afterDigit with
  | nil => cases afterDigit <;> rfl
  | cons c rest ih =>
    have plain := (isDigit_unsigned (h c List.mem_cons_self)).1
    have later := ih (fun d member => h d (List.mem_cons_of_mem _ member)) (count + 1) true
    cases decimal : isDecimal c with
    | false => cases afterDigit <;> simp [digitCount?, plain, decimal]
    | true =>
      rw [digitCount?, if_neg plain, if_pos decimal, later]
      simp [decimal]
      omega

/-- No digit is a sign. -/
theorem unsigned_digits {digits : List Char} (h : ∀ c ∈ digits, isDigit c = true) :
    withoutSign digits = digits ∧
      integerOfChars? digits = (digitsValue? 0 false digits).map Int.ofNat := by
  cases digits with
  | nil => exact ⟨rfl, rfl⟩
  | cons c rest =>
    obtain ⟨-, minus, plus⟩ := isDigit_unsigned (h c List.mem_cons_self)
    constructor
    · unfold withoutSign
      split
      · rename_i eq; exact absurd (List.cons.inj eq).1 minus
      · rename_i eq; exact absurd (List.cons.inj eq).1 plus
      · rfl
    · unfold integerOfChars?
      split
      · rename_i eq; exact absurd (List.cons.inj eq).1 minus
      · rename_i eq; exact absurd (List.cons.inj eq).1 plus
      · rfl

/-- Digits are counted up to the first that is no decimal, and they are counted first. Some digits
are no decimals, and a text with one of them is no number. -/
theorem integer_digits {s : String} (h : isDigits s = true) :
    integer s =
      if digitLimit < (s.toList.takeWhile isDecimal).length then
        .error (.overlong (s.toList.takeWhile isDecimal).length)
      else if s.toList.all isDecimal then .ok (decimalsValue 0 s.toList : Int)
      else .error .malformed := by
  simp only [isDigits, Bool.and_eq_true, Bool.not_eq_true', String.isEmpty_eq_false_iff,
    List.all_eq_true] at h
  obtain ⟨nonempty, digits⟩ := h
  have chars : s.toList ≠ [] := by simpa using nonempty
  have bare := (unsigned_digits digits).1
  have read : integerOfChars? s.toList =
      if s.toList.all isDecimal then some (decimalsValue 0 s.toList : Int) else none := by
    rw [(unsigned_digits digits).2, digitsValue?_digits digits 0 false (.inl chars)]
    split <;> rfl
  have count : (digitCount? 0 false s.toList).getD 0 = (s.toList.takeWhile isDecimal).length := by
    rw [digitCount?_digits digits]
    split
    · rename_i none_decimal
      rw [none_decimal.2]
      rfl
    · simp
  simp only [integer, withoutMargins_digits digits, bare, count, read]
  by_cases decimals : s.toList.all isDecimal = true
  · simp only [if_pos decimals]
  · simp only [if_neg decimals]

/-- Some digits are no decimals, and a text with one of them is no number; nor is a text of more
decimals than are allowed. -/
theorem integer?_digits {s : String} (h : isDigits s = true) :
    integer? s = if s.toList.length ≤ digitLimit ∧ s.toList.all isDecimal then
      some (decimalsValue 0 s.toList : Int) else none := by
  rw [integer?, integer_digits h]
  by_cases decimals : s.toList.all isDecimal = true
  · have whole : s.toList.takeWhile isDecimal = s.toList :=
      List.takeWhile_eq_self_iff.mpr (List.all_eq_true.mp decimals)
    rw [whole]
    by_cases long : digitLimit < s.toList.length
    · rw [if_pos long, if_neg (by omega)]
      rfl
    · rw [if_neg long, if_pos decimals, if_pos ⟨by omega, decimals⟩]
      rfl
  · have refused : ¬(s.toList.length ≤ digitLimit ∧ s.toList.all isDecimal = true) :=
      fun both => decimals both.2
    rw [if_neg decimals, if_neg refused]
    split <;> rfl

end SessionPlan.Text
