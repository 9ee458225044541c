import SessionPlan.Json.Reader
import SessionPlan.Json.Writer
import SessionPlan.Proofs.Outcome
import SessionPlan.Proofs.Text.Decimal

/-! Strings, numbers and words of JSON text: what is written of each is read back as it is, whatever
follows it. Words and strings end by themselves; a number ends where something follows that cannot
be part of one. -/
namespace SessionPlan.Json
open SessionPlan.Text

/-! ### Strings -/

/-- A unit is read from its four digits alone. -/
theorem unit?_cons (a b c d : Char) (rest : List Char) :
    unit? (a :: b :: c :: d :: rest) = (unit? [a, b, c, d]).map fun found => (found.1, rest) := by
  simp only [unit?]
  cases hexValue? a
  · rfl
  cases hexValue? b
  · rfl
  cases hexValue? c
  · rfl
  cases hexValue? d <;> rfl

/-- A control character is written as four digits, and they are read as its code. -/
theorem unit?_hex {n : Nat} (control : n < 0x20) (rest : List Char) :
    unit? (hex 4 n ++ rest) = some (n, rest) := by
  have table : ∀ n < 0x20, unit? (hex 4 n) = some (n, []) := by decide
  have read := table n control
  obtain ⟨a, b, c, d, digits⟩ : ∃ a b c d, hex 4 n = [a, b, c, d] := ⟨_, _, _, _, rfl⟩
  rw [digits] at read ⊢
  simp only [List.cons_append, List.nil_append]
  rw [unit?_cons, read, Option.map_some]

theorem unicodeEscape_hex {c : Char} (control : c.toNat < 0x20) {rest : List Char}
    (more : rest ≠ []) : unicodeEscape (hex 4 c.toNat ++ rest) = .ok (c, rest) := by
  have digits : (hex 4 c.toNat).length = 4 := rfl
  have long : ¬(hex 4 c.toNat ++ rest).length < 5 := by
    have some_more := List.length_pos_iff.mpr more
    rw [List.length_append, digits]
    omega
  have whole : isHighUnit c.toNat = false ∧ isLowUnit c.toNat = false := by
    simp only [isHighUnit, isLowUnit, Bool.and_eq_false_iff, decide_eq_false_iff_not]
    omega
  rw [unicodeEscape, if_neg long, unit?_hex control]
  simp [whole.1, whole.2]

theorem simpleEscape?_name {c name : Char} (named : namedEscapes.lookup c = some name) :
    simpleEscape? name = some c ∧ name ≠ 'u' := by
  have table : ∀ pair ∈ namedEscapes, simpleEscape? pair.2 = some pair.1 ∧ pair.2 ≠ 'u' := by
    decide
  obtain ⟨before, after, whole, -⟩ := List.lookup_eq_some_iff.mp named
  exact table (c, name) (by simp [whole])

/-- Each character is read back from what it is written as. -/
theorem stringChars_escapedChar {start rest after cs : List Char} {fuel : Nat} (more : rest ≠ [])
    (later : stringChars start fuel rest = .ok (cs, after)) (c : Char) :
    stringChars start (fuel + 1) (escapedChar c ++ rest) = .ok (c :: cs, after) := by
  cases named : namedEscapes.lookup c with
  | some name =>
    obtain ⟨meant, short⟩ := simpleEscape?_name named
    simp only [escapedChar, named, List.cons_append, List.nil_append]
    rw [stringChars]
    · simp only [meant, later]
      rfl
    · exact short
  | none =>
    by_cases control : c.toNat < 0x20
    · simp only [escapedChar, named, if_pos control, List.cons_append]
      rw [stringChars, unicodeEscape_hex control more]
      simp only [ok_bind, later]
      rfl
    · have quote : c ≠ '"' := by rintro rfl; cases named
      have backslash : c ≠ '\\' := by rintro rfl; cases named
      simp only [escapedChar, named, if_neg control, List.cons_append, List.nil_append]
      rw [stringChars, if_neg control, later]
      · rfl
      all_goals simp [quote, backslash]

theorem stringChars_escaped (start rest : List Char) {s : List Char} {fuel : Nat}
    (enough : s.length < fuel) :
    stringChars start fuel (s.flatMap escapedChar ++ '"' :: rest) = .ok (s, rest) := by
  induction s generalizing fuel with
  | nil =>
    obtain ⟨fuel, rfl⟩ := Nat.exists_eq_succ_of_ne_zero (Nat.ne_of_gt enough)
    rfl
  | cons c s ih =>
    obtain ⟨fuel, rfl⟩ := Nat.exists_eq_succ_of_ne_zero (Nat.ne_of_gt (Nat.zero_lt_of_lt enough))
    have later := ih (Nat.lt_of_succ_lt_succ enough)
    rw [List.flatMap_cons, List.append_assoc]
    exact stringChars_escapedChar (by simp) later c

/-- No character is written as nothing. -/
theorem length_le_escaped (s : List Char) : s.length ≤ (s.flatMap escapedChar).length := by
  induction s with
  | nil => exact Nat.le_refl _
  | cons c s ih =>
    have one : 1 ≤ (escapedChar c).length := by
      unfold escapedChar
      split
      · simp
      · split <;> simp
    rw [List.flatMap_cons, List.length_append, List.length_cons]
    omega

theorem stringText_toList (s : String) :
    (stringText s).toList = '"' :: (s.toList.flatMap escapedChar ++ ['"']) := by
  rw [stringText, String.toList_ofList, List.cons_append]

theorem stringAfterQuote_stringText (s : String) (rest : List Char) :
    stringAfterQuote (s.toList.flatMap escapedChar ++ '"' :: rest) = .ok (s, rest) := by
  have enough : s.toList.length <
      (s.toList.flatMap escapedChar ++ '"' :: rest).length + 1 := by
    have written := length_le_escaped s.toList
    rw [List.length_append]
    omega
  rw [stringAfterQuote, stringChars_escaped _ rest enough, ok_bind]
  simp only [String.ofList_toList]
  rfl

/-! ### Numbers -/

/-- What follows a value in a document: a comma or a line feed. -/
def Delimited (rest : List Char) : Prop := ∃ c tail, rest = c :: tail ∧ (c = ',' ∨ c = '\n')

theorem isAsciiDigit_of_isDigit {c : Char} (digit : c.isDigit) : isAsciiDigit c = true := by
  have range := toNat_of_isDigit digit
  simp only [isAsciiDigit, Bool.and_eq_true, decide_eq_true_eq]
  exact range

theorem natOfDigits_toDigits (n : Nat) : natOfDigits (Nat.toDigits 10 n) = n :=
  Nat.ofDigitChars_ten_toDigits

theorem takeWhile_toDigits (n : Nat) {rest : List Char} (delimited : Delimited rest) :
    (Nat.toDigits 10 n ++ rest).takeWhile isAsciiDigit = Nat.toDigits 10 n := by
  obtain ⟨c, tail, rfl, delimiter⟩ := delimited
  have digits : ∀ d ∈ Nat.toDigits 10 n, isAsciiDigit d = true := fun d member =>
    isAsciiDigit_of_isDigit (Nat.isDigit_of_mem_toDigits (by decide) (by decide) member)
  have stop : isAsciiDigit c = false := by rcases delimiter with rfl | rfl <;> decide
  rw [List.takeWhile_append_of_pos digits, List.takeWhile_cons_of_neg (by simp [stop]),
    List.append_nil]

/-- A number without fraction and exponent, of as many digits as are allowed. -/
theorem number_toDigits {limit : Option Nat} (negative : Bool) {n : Nat} {rest : List Char}
    (delimited : Delimited rest)
    (allowed : allowsDigits limit (Nat.toDigits 10 n).length = true) :
    number limit negative (Nat.toDigits 10 n ++ rest) =
      .ok (.int (if negative then -(n : Int) else n), rest) := by
  have whole : (if (Nat.toDigits 10 n ++ rest).head? = some '0' then ['0']
      else (Nat.toDigits 10 n ++ rest).takeWhile isAsciiDigit) = Nat.toDigits 10 n := by
    by_cases zero : n = 0
    · subst zero
      rfl
    · rw [List.head?_append_of_ne_nil _ Nat.toDigits_ne_nil, if_neg (head?_toDigits zero),
        takeWhile_toDigits n delimited]
  have plain : fraction rest = ([], rest) ∧ exponent? rest = none := by
    obtain ⟨c, tail, rfl, rfl | rfl⟩ := delimited
    · exact ⟨rfl, rfl⟩
    · exact ⟨rfl, rfl⟩
  simp only [number, whole, List.drop_left, plain.1, plain.2, List.append_nil,
    natOfDigits_toDigits, List.isEmpty_nil, Bool.not_true, Bool.false_eq_true, if_false, allowed,
    if_true]

/-! ### Values without parts -/

theorem keyword?_eq_none {s : List Char} (apart : ∀ pair ∈ keywords, ¬pair.1 <+: s) :
    keyword? s = none := by
  rw [keyword?, Option.map_eq_none_iff, List.find?_eq_none]
  intro pair member
  rw [List.isPrefixOf_iff_prefix]
  exact apart pair member

/-- A digit begins no word, nor does a sign and a digit. -/
theorem keyword?_digit {c : Char} (digit : isAsciiDigit c = true) (rest : List Char) :
    keyword? (c :: rest) = none ∧ keyword? ('-' :: c :: rest) = none := by
  have letters : c ≠ 'n' ∧ c ≠ 't' ∧ c ≠ 'f' ∧ c ≠ 'N' ∧ c ≠ 'I' ∧ c ≠ '-' := by
    refine ⟨?_, ?_, ?_, ?_, ?_, ?_⟩
    all_goals
      rintro rfl
      exact absurd digit (by decide)
  constructor
  all_goals
    apply keyword?_eq_none
    simp [keywords, List.cons_prefix_cons, Ne.symm letters.1, Ne.symm letters.2.1]
    tauto

theorem scalar_digit (limit : Option Nat) {c : Char} (digit : isAsciiDigit c = true)
    (rest : List Char) : scalar limit (c :: rest) = number limit false (c :: rest) := by
  have quote : c ≠ '"' := by rintro rfl; exact absurd digit (by decide)
  have minus : c ≠ '-' := by rintro rfl; exact absurd digit (by decide)
  unfold scalar
  rw [(keyword?_digit digit rest).1]
  dsimp only
  split
  · rename_i eq; exact absurd (List.cons.inj eq).1 quote
  · rename_i eq; exact absurd (List.cons.inj eq).1 minus
  · rename_i eq
    obtain ⟨rfl, rfl⟩ := List.cons.inj eq
    rw [if_pos digit]
  · rename_i eq; cases eq

theorem scalar_minus (limit : Option Nat) {c : Char} (digit : isAsciiDigit c = true)
    (rest : List Char) : scalar limit ('-' :: c :: rest) = number limit true (c :: rest) := by
  rw [scalar, (keyword?_digit digit rest).2]
  exact if_pos digit

/-- The first digit of a number. -/
theorem toDigits_cons (n : Nat) :
    ∃ c digits, Nat.toDigits 10 n = c :: digits ∧ isAsciiDigit c = true := by
  obtain ⟨c, digits, whole⟩ := List.exists_cons_of_ne_nil (Nat.toDigits_ne_nil (n := n))
  have member : c ∈ Nat.toDigits 10 n := whole ▸ List.mem_cons_self
  exact ⟨c, digits, whole,
    isAsciiDigit_of_isDigit (Nat.isDigit_of_mem_toDigits (by decide) (by decide) member)⟩

theorem scalar_ofInt {limit : Option Nat} {n : Int} {rest : List Char} (delimited : Delimited rest)
    (allowed : allowsDigits limit (Nat.toDigits 10 n.natAbs).length = true) :
    scalar limit ((ofInt n).toList ++ rest) = .ok (.int n, rest) := by
  cases n with
  | ofNat k =>
    obtain ⟨c, digits, whole, digit⟩ := toDigits_cons k
    have read := number_toDigits false delimited (n := k) allowed
    rw [ofInt, ofNat, String.toList_ofList]
    rw [whole, List.cons_append] at read ⊢
    rw [scalar_digit limit digit, read]
    rfl
  | negSucc k =>
    obtain ⟨c, digits, whole, digit⟩ := toDigits_cons (k + 1)
    have read := number_toDigits true delimited (n := k + 1) allowed
    rw [ofInt, String.toList_ofList, List.cons_append]
    rw [whole, List.cons_append] at read ⊢
    rw [scalar_minus limit digit, read]
    rfl

theorem scalar_word (limit : Option Nat) (t : Tree) (rest : List Char)
    (word : t = .null ∨ t = .flag true ∨ t = .flag false) :
    scalar limit ((scalarText t).toList ++ rest) = .ok (t, rest) := by
  rcases word with rfl | rfl | rfl
  all_goals rfl

theorem scalar_stringText (limit : Option Nat) (s : String) (rest : List Char) :
    scalar limit ((stringText s).toList ++ rest) = .ok (.text s, rest) := by
  have no_word : keyword? ('"' :: (s.toList.flatMap escapedChar ++ '"' :: rest)) = none :=
    keyword?_eq_none (by simp [keywords, List.cons_prefix_cons])
  rw [stringText_toList, List.cons_append, List.append_assoc, List.singleton_append, scalar,
    no_word]
  simp only [stringAfterQuote_stringText, ok_bind]
  rfl

end SessionPlan.Json
