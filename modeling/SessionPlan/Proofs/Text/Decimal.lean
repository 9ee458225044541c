import SessionPlan.Proofs.Text.Script
import Mathlib.Algebra.Group.Nat.Defs
import Mathlib.Data.List.Induction

/-! Decimals in ASCII digits: reading one gives the number that it writes, and one without leading
zeros is what that number is written as. -/
namespace SessionPlan.Text

theorem toNat_of_isDigit {c : Char} (h : c.isDigit) : 48 ≤ c.toNat ∧ c.toNat ≤ 57 :=
  Char.isDigit_iff_toNat.mp h

theorem decimalValue?_ascii {c : Char} (h : c.isDigit) : decimalValue? c = some (c.toNat - 48) := by
  have range := toNat_of_isDigit h
  have below : c.toNat < 58 := by omega
  simp [decimalValue?, zeroDigits, range.1, below]

theorem isDigit_ascii {c : Char} (h : c.isDigit) : isDigit c = true := by
  simp [isDigit, isDecimal, decimalValue?_ascii h]

theorem decimalsValue_ascii {digits : List Char} (h : ∀ c ∈ digits, c.isDigit) (value : Nat) :
    decimalsValue value digits = Nat.ofDigitChars 10 digits value := by
  induction digits generalizing value with
  | nil => rfl
  | cons c rest ih =>
    have later := ih (fun d member => h d (List.mem_cons_of_mem _ member))
      (10 * value + (c.toNat - 48))
    rw [Nat.ofDigitChars_cons, decimalsValue, List.foldl_cons,
      decimalValue?_ascii (h c List.mem_cons_self)]
    exact later

theorem digitChar_of_isDigit {c : Char} (h : c.isDigit) :
    c.toNat - 48 < 10 ∧ (c.toNat - 48).digitChar = c := by
  have range := toNat_of_isDigit h
  have small : c.toNat - 48 < 10 := by omega
  have table : ∀ d < 10, Nat.digitChar d = Char.ofNat (d + 48) := by decide
  refine ⟨small, ?_⟩
  rw [table _ small, Nat.sub_add_cancel range.1, Char.ofNat_toNat]

theorem isDigits_ascii {s : String} (h : ∀ c ∈ s.toList, c.isDigit) (nonempty : s.toList ≠ []) :
    isDigits s = true := by
  simp only [isDigits, Bool.and_eq_true, Bool.not_eq_true', List.all_eq_true]
  exact ⟨by simpa using nonempty, fun c member => isDigit_ascii (h c member)⟩

theorem integer?_ascii {s : String} (h : ∀ c ∈ s.toList, c.isDigit) (nonempty : s.toList ≠ []) :
    integer? s = if s.toList.length ≤ digitLimit then
      some (Nat.ofDigitChars 10 s.toList 0 : Int) else none := by
  have decimals : s.toList.all isDecimal = true :=
    List.all_eq_true.mpr fun c member => by simp [isDecimal, decimalValue?_ascii (h c member)]
  rw [integer?_digits (isDigits_ascii h nonempty), decimalsValue_ascii h]
  simp only [decimals, and_true]

theorem isDigit_of_mem_ofNat {n : Nat} {c : Char} (h : c ∈ (ofNat n).toList) : c.isDigit := by
  rw [ofNat, String.toList_ofList] at h
  exact Nat.isDigit_of_mem_toDigits (by decide) (by decide) h

theorem ofNat_toList_ne_nil (n : Nat) : (ofNat n).toList ≠ [] := by
  simp [ofNat, Nat.toDigits_ne_nil]

/-- Without leading zeros a number has only one decimal. -/
theorem toDigits_ofDigitChars {digits : List Char} (h : ∀ c ∈ digits, c.isDigit)
    (nonempty : digits ≠ []) (leading : digits.head? ≠ some '0') :
    Nat.toDigits 10 (Nat.ofDigitChars 10 digits 0) = digits ∧ 0 < Nat.ofDigitChars 10 digits 0 := by
  induction digits using List.reverseRecOn with
  | nil => exact absurd rfl nonempty
  | append_singleton front c ih =>
    have digit := h c (by simp)
    obtain ⟨d, small, rfl⟩ : ∃ d, d < 10 ∧ d.digitChar = c := ⟨_, digitChar_of_isDigit digit⟩
    rw [Nat.ofDigitChars_append, Nat.ofDigitChars_cons_digitChar_of_lt_ten small,
      Nat.ofDigitChars_nil]
    by_cases empty : front = []
    · subst empty
      have positive : d ≠ 0 := by rintro rfl; simp at leading
      simp [Nat.toDigits_of_lt_base small]
      omega
    · have lead : front.head? ≠ some '0' := by
        intro zero
        exact leading (by rw [List.head?_append_of_ne_nil _ empty, zero])
      obtain ⟨same, positive⟩ := ih (fun d member => h d (by simp [member])) empty lead
      rw [← Nat.toDigits_append_toDigits (by decide) positive small, same,
        Nat.toDigits_of_lt_base small]
      exact ⟨rfl, by omega⟩

/-- Only zero is written with a leading zero. -/
theorem head?_toDigits {n : Nat} (positive : n ≠ 0) : (Nat.toDigits 10 n).head? ≠ some '0' := by
  induction n using Nat.strongRecOn with
  | ind n ih =>
    by_cases small : n < 10
    · have table : ∀ d < 10, d ≠ 0 → Nat.digitChar d ≠ '0' := by decide
      rw [Nat.toDigits_of_lt_base small]
      simpa using table n small positive
    · have front : n / 10 ≠ 0 := by omega
      have leading := ih (n / 10) (by omega) front
      have whole : Nat.toDigits 10 n = Nat.toDigits 10 (n / 10) ++ Nat.toDigits 10 (n % 10) := by
        rw [Nat.toDigits_append_toDigits (by decide) (by omega) (by omega), Nat.div_add_mod]
      rw [whole, List.head?_append_of_ne_nil _ Nat.toDigits_ne_nil]
      exact leading

/-! ### Signs -/

theorem isBlank_of_mem_ofInt {n : Int} {c : Char} (h : c ∈ (ofInt n).toList) :
    isBlank c = false := by
  cases n with
  | ofNat k => exact isDigit_not_blank (isDigit_ascii (isDigit_of_mem_ofNat h))
  | negSucc k =>
    rw [ofInt, String.toList_ofList] at h
    rcases List.mem_cons.mp h with rfl | digit
    · decide
    · have digit : c ∈ (ofNat (k + 1)).toList := by rwa [ofNat, String.toList_ofList]
      exact isDigit_not_blank (isDigit_ascii (isDigit_of_mem_ofNat digit))

theorem ofInt_eq_repr (n : Int) : ofInt n = n.repr := by
  cases n with
  | ofNat k => rfl
  | negSucc k =>
    have printed : (Int.negSucc k).repr = "-" ++ String.ofList (Nat.toDigits 10 (k + 1)) := rfl
    have sign : "-".toList = ['-'] := by decide
    rw [printed, ofInt, ← String.toList_inj, String.toList_append, sign, String.toList_ofList,
      String.toList_ofList]
    rfl

theorem ofInt_toList_ne_nil (n : Int) : (ofInt n).toList ≠ [] := by
  cases n with
  | ofNat k => exact ofNat_toList_ne_nil k
  | negSucc k => simp [ofInt]

theorem isDigit_of_mem_toDigits {n : Nat} {c : Char} (h : c ∈ Nat.toDigits 10 n) :
    isDigit c = true :=
  isDigit_ascii (Nat.isDigit_of_mem_toDigits (by decide) (by decide) h)

theorem isDecimal_of_mem_toDigits {n : Nat} {c : Char} (h : c ∈ Nat.toDigits 10 n) :
    isDecimal c = true := by
  have ascii : c.isDigit := Nat.isDigit_of_mem_toDigits (by decide) (by decide) h
  simp [isDecimal, decimalValue?_ascii ascii]

theorem digitsValue?_toDigits (n : Nat) : digitsValue? 0 false (Nat.toDigits 10 n) = some n := by
  have ascii : ∀ c ∈ Nat.toDigits 10 n, c.isDigit := fun c member =>
    Nat.isDigit_of_mem_toDigits (by decide) (by decide) member
  have decimals : (Nat.toDigits 10 n).all isDecimal = true :=
    List.all_eq_true.mpr fun c => isDecimal_of_mem_toDigits
  rw [digitsValue?_digits (fun c => isDigit_of_mem_toDigits) 0 false (.inl Nat.toDigits_ne_nil),
    if_pos decimals, decimalsValue_ascii ascii, Nat.ofDigitChars_ten_toDigits]

/-- An integer is written as its sign and the digits of its size. -/
theorem withoutSign_ofInt (n : Int) :
    withoutSign (ofInt n).toList = Nat.toDigits 10 n.natAbs ∧
      integerOfChars? (ofInt n).toList = some n := by
  cases n with
  | ofNat k =>
    obtain ⟨bare, read⟩ := unsigned_digits fun c => isDigit_of_mem_toDigits (n := k) (c := c)
    rw [ofInt, ofNat, String.toList_ofList, bare, read, digitsValue?_toDigits]
    exact ⟨rfl, rfl⟩
  | negSucc k =>
    rw [ofInt, String.toList_ofList, integerOfChars?, digitsValue?_toDigits]
    exact ⟨rfl, rfl⟩

/-! ### The limit of digits -/

theorem isWritable_iff {n : Int} : isWritable n = true ↔ n.natAbs < 10 ^ digitLimit := by
  rw [isWritable, allowsDigits, Option.all_some, decide_eq_true_iff,
    Nat.length_toDigits_le_iff (by decide) (by decide)]

/-- An integer with more digits than the limit allows. -/
def IsOverlong (n : Int) : Prop := 10 ^ digitLimit ≤ n.natAbs

theorem not_isOverlong_iff {n : Int} : ¬IsOverlong n ↔ isWritable n = true :=
  Nat.not_le.trans isWritable_iff.symm

theorem isOverlong_iff {n : Int} : IsOverlong n ↔ isWritable n = false := by
  rw [← Bool.not_eq_true, ← not_isOverlong_iff, not_not]

/-- The first integer that is too long. -/
def firstOverlong : Int := (10 ^ digitLimit : Nat)

theorem isOverlong_firstOverlong : IsOverlong firstOverlong := le_rfl

theorem decimalValue?_lt {c : Char} {d : Nat} (digit : decimalValue? c = some d) : d < 10 := by
  obtain ⟨first, found, rfl⟩ := Option.map_eq_some_iff.mp digit
  have inside := List.find?_some found
  simp only [Bool.and_eq_true, decide_eq_true_eq] at inside
  omega

/-- A numeral has as many digits as are counted in it, and its value is no longer. -/
theorem digitCount?_of_digitsValue? {value count : Nat} {afterDigit : Bool} {s : List Char}
    {n : Nat} (read : digitsValue? value afterDigit s = some n) :
    ∃ k, digitCount? count afterDigit s = some (count + k) ∧ n < (value + 1) * 10 ^ k := by
  induction s generalizing value count afterDigit with
  | nil =>
    cases afterDigit with
    | false => cases read
    | true =>
      cases read
      exact ⟨0, rfl, by omega⟩
  | cons c rest ih =>
    rw [digitsValue?] at read
    by_cases bar : c = '_'
    · rw [if_pos bar] at read
      cases afterDigit with
      | false => cases read
      | true =>
        obtain ⟨k, counted, bound⟩ := @ih _ count _ read
        exact ⟨k, by rw [digitCount?, if_pos bar]; exact counted, bound⟩
    · rw [if_neg bar] at read
      cases digit : decimalValue? c with
      | none => simp [digit] at read
      | some d =>
        simp only [digit] at read
        obtain ⟨k, counted, bound⟩ := @ih _ (count + 1) _ read
        have small := decimalValue?_lt digit
        refine ⟨k + 1, ?_, ?_⟩
        · rw [digitCount?, if_neg bar, if_pos (by simp [isDecimal, digit]), counted]
          congr 1
          omega
        · calc n < (10 * value + d + 1) * 10 ^ k := bound
            _ ≤ (value + 1) * 10 * 10 ^ k := Nat.mul_le_mul_right _ (by omega)
            _ = (value + 1) * 10 ^ (k + 1) := by rw [Nat.mul_assoc, Nat.pow_succ']

theorem digitsValue?_of_integerOfChars? {s : List Char} {n : Int}
    (read : integerOfChars? s = some n) :
    digitsValue? 0 false (withoutSign s) = some n.natAbs := by
  unfold integerOfChars? at read
  split at read
  all_goals
    obtain ⟨k, digits, rfl⟩ := Option.map_eq_some_iff.mp read
  · simpa [withoutSign] using digits
  · simpa [withoutSign] using digits
  · rename_i minus plus
    rw [show withoutSign s = s by unfold withoutSign; split <;> simp_all]
    simpa using digits

/-- Reading what an integer is written as gives the integer, unless it has too many digits. -/
theorem integer_ofInt (n : Int) : integer (ofInt n) =
    if isWritable n then .ok n else .error (.overlong (Nat.toDigits 10 n.natAbs).length) := by
  have count : (digitCount? 0 false (withoutSign (ofInt n).toList)).getD 0 =
      (Nat.toDigits 10 n.natAbs).length := by
    have decimals : (Nat.toDigits 10 n.natAbs).takeWhile isDecimal = Nat.toDigits 10 n.natAbs :=
      List.takeWhile_eq_self_iff.mpr fun c => isDecimal_of_mem_toDigits
    rw [(withoutSign_ofInt n).1, digitCount?_digits fun c => isDigit_of_mem_toDigits, decimals]
    simp [Nat.toDigits_ne_nil]
  have solid : withoutMargins (ofInt n).toList = (ofInt n).toList :=
    withoutMargins_of_solid fun c => isBlank_of_mem_ofInt
  simp only [integer, solid, count, (withoutSign_ofInt n).2, isWritable, allowsDigits,
    Option.all_some]
  by_cases long : digitLimit < (Nat.toDigits 10 n.natAbs).length
  · simp [long]
  · simp [long, Nat.le_of_not_lt long]

theorem integer?_ofInt {n : Int} (writable : isWritable n = true) : integer? (ofInt n) = some n := by
  rw [integer?, integer_ofInt, if_pos writable]
  rfl

theorem integer?_ofInt_eq_none {n : Int} (long : isWritable n = false) :
    integer? (ofInt n) = none := by
  rw [integer?, integer_ofInt, long]
  rfl

/-- An integer that has been read can be written. -/
theorem isWritable_of_integer {s : String} {n : Int} (read : integer s = .ok n) :
    isWritable n = true := by
  simp only [integer] at read
  split at read
  · cases read
  · rename_i few
    split at read
    · rename_i value known
      cases read
      have digits := digitsValue?_of_integerOfChars? known
      obtain ⟨k, counted, bound⟩ := @digitCount?_of_digitsValue? 0 0 _ _ _ digits
      rw [counted, Option.getD_some] at few
      rw [isWritable_iff]
      calc n.natAbs < 1 * 10 ^ k := by simpa using bound
        _ ≤ 10 ^ digitLimit := by
          rw [Nat.one_mul]
          exact Nat.pow_le_pow_right (by decide) (by omega)
    · cases read

theorem isWritable_of_integer? {s : String} {n : Int} (read : integer? s = some n) :
    isWritable n = true := by
  unfold integer? at read
  cases known : integer s with
  | error flaw => simp [known, Except.toOption] at read
  | ok m =>
    obtain rfl : m = n := by simpa [known, Except.toOption] using read
    exact isWritable_of_integer known

end SessionPlan.Text
