import SessionPlan.Proofs.Json.Leaves
import SessionPlan.Proofs.Yaml.Spelled
import SessionPlan.Yaml.ScalarValue

/-! Integers as plain texts: what an integer is written as is a plain text, looks like an integer and
is read as this one. -/
namespace SessionPlan.Yaml
open SessionPlan.Text

/-- A sign, if there is one, and the digits of the magnitude. -/
theorem ofInt_parts (n : Int) : ∃ negative : Bool,
    (ofInt n).toList = (if negative then ['-'] else []) ++ Nat.toDigits 10 n.natAbs ∧
      n = if negative then -(n.natAbs : Int) else n.natAbs := by
  cases n with
  | ofNat k => exact ⟨false, by simp [ofInt, ofNat], by simp⟩
  | negSucc k => exact ⟨true, by simp [ofInt], Int.negSucc_eq k⟩

theorem isDigit_of_mem_toDigits {n : Nat} {c : Char} (member : c ∈ Nat.toDigits 10 n) :
    c.isDigit = true :=
  Nat.isDigit_of_mem_toDigits (by decide) (by decide) member

/-- What holds of the ten digits holds of all of them. -/
theorem forall_digits {p : Char → Prop} (table : ∀ d < 10, p (Nat.digitChar d)) (n : Nat) :
    ∀ c ∈ Nat.toDigits 10 n, p c := by
  intro c member
  obtain ⟨small, same⟩ := digitChar_of_isDigit (isDigit_of_mem_toDigits member)
  exact same ▸ table _ small

theorem forall_ofInt {p : Char → Prop} (minus : p '-') (table : ∀ d < 10, p (Nat.digitChar d))
    (n : Int) : ∀ c ∈ (ofInt n).toList, p c := by
  obtain ⟨negative, text, -⟩ := ofInt_parts n
  rw [text]
  intro c member
  rcases List.mem_append.mp member with sign | digit
  · cases negative with
    | true => exact List.mem_singleton.mp sign ▸ minus
    | false => cases sign
  · exact forall_digits table _ c digit

theorem toDigits_cons (n : Nat) : ∃ c rest, Nat.toDigits 10 n = c :: rest ∧ c.isDigit = true := by
  obtain ⟨c, rest, digits⟩ := List.exists_cons_of_ne_nil (Nat.toDigits_ne_nil (b := 10) (n := n))
  exact ⟨c, rest, digits, isDigit_of_mem_toDigits (digits ▸ List.mem_cons_self)⟩

theorem holdsIndicator_eq_false {previous : Char} {s : List Char}
    (clear : ∀ c ∈ s, c ≠ ':' ∧ c ≠ '#') : holdsIndicator previous s = false := by
  induction s generalizing previous with
  | nil => rfl
  | cons c s ih =>
    obtain ⟨first, clear⟩ := List.forall_mem_cons.mp clear
    simp [holdsIndicator, first, ih clear]

/-- An integer may stand as plain text. -/
theorem ofInt_fits (n : Int) : Fits .plain (ofInt n).toList := by
  refine ⟨ofInt_toList_ne_nil n, ?_⟩
  have letters := forall_ofInt (p := fun c => isSpaceOrBreak c = false ∧ isTextBreak c = false ∧
    needsEscape c = false) (by decide) (by decide) n
  have unmarked := forall_ofInt (p := fun c => isLeadingIndicator c = false ∧ '.' ≠ c ∧ c ≠ '?' ∧
    c ≠ ':' ∧ c ≠ '#') (by decide) (by decide) n
  obtain ⟨negative, text, -⟩ := ofInt_parts n
  obtain ⟨d, rest, digits, -⟩ := toDigits_cons n.natAbs
  have number := forall_digits (p := fun c => '-' ≠ c ∧ endsWord c = false) (by decide) n.natAbs d
    (digits ▸ List.mem_cons_self)
  have block : holdsBlockIndicator (ofInt n).toList = false := by
    have clear (previous : Char) (s : List Char) (inside : ∀ c ∈ s, c ∈ (ofInt n).toList) :
        holdsIndicator previous s = false :=
      holdsIndicator_eq_false fun c member => (unmarked c (inside c member)).2.2.2
    rw [text, digits] at unmarked clear ⊢
    cases negative with
    | true =>
      have later := clear '-' (d :: rest) fun c member => List.mem_cons_of_mem _ member
      have dash : isLeadingIndicator '-' = false := by decide
      simp [holdsBlockIndicator, List.isPrefixOf, number, later, dash]
    | false =>
      have later := clear d rest fun c member => List.mem_cons_of_mem _ member
      have first := unmarked d List.mem_cons_self
      simp [holdsBlockIndicator, List.isPrefixOf, number, number.1.symm, first, later]
  simp only [allowsPlain, Bool.not_eq_true', Bool.or_eq_false_iff, List.any_eq_false,
    Bool.not_eq_true, block, and_true]
  refine ⟨⟨⟨?_, ?_⟩, fun c member => (letters c member).2.1⟩, fun c member =>
    (letters c member).2.2⟩
  · cases first : (ofInt n).toList.head? with
    | none => rfl
    | some c => exact (letters c (List.mem_of_head? first)).1
  · cases last : (ofInt n).toList.getLast? with
    | none => rfl
    | some c => exact (letters c (List.mem_of_getLast? last)).1

/-! ### The tag of an integer -/

theorem unsigned_ofInt (n : Int) : unsigned (ofInt n).toList = Nat.toDigits 10 n.natAbs := by
  obtain ⟨negative, text, -⟩ := ofInt_parts n
  obtain ⟨d, rest, digits, -⟩ := toDigits_cons n.natAbs
  have number := forall_digits (p := fun c => c ≠ '-' ∧ c ≠ '+') (by decide) n.natAbs d
    (digits ▸ List.mem_cons_self)
  rw [text, digits]
  cases negative with
  | true => rfl
  | false =>
    show unsigned (d :: rest) = d :: rest
    unfold unsigned
    split
    · rename_i same
      exact absurd (List.cons.inj same).1 number.1
    · rename_i same
      exact absurd (List.cons.inj same).1 number.2
    · rfl

/-- No word begins as an integer does. -/
theorem looksLike_ofInt (words : List String) (n : Int)
    (table : ∀ w ∈ words, w.toList.head?.any (fun c => c == '-' || c.isDigit) = false) :
    looksLike words (ofInt n).toList = false := by
  refine List.any_eq_false.mpr fun w member same => ?_
  have letters := forall_ofInt (p := fun c => (c == '-' || c.isDigit) = true) (by decide)
    (by decide) n
  rw [beq_iff_eq] at same
  have clear := table w member
  obtain ⟨c, rest, text⟩ := List.exists_cons_of_ne_nil (ofInt_toList_ne_nil n)
  rw [same, text, List.head?_cons, Option.any_some,
    letters c (text ▸ List.mem_cons_self)] at clear
  cases clear

theorem dropWhile_toDigits (n : Nat) : (Nat.toDigits 10 n).dropWhile isDigitOrBar = [] :=
  List.dropWhile_eq_nil_iff.mpr (forall_digits (by decide) n)

theorem isFloat_ofInt (n : Int) : isFloat (ofInt n).toList = false := by
  have nan : [".nan", ".NaN", ".NAN"].any (·.toList == (ofInt n).toList) = false :=
    looksLike_ofInt _ n (by decide)
  have infinity : [".inf", ".Inf", ".INF"].any (·.toList == Nat.toDigits 10 n.natAbs) = false := by
    have unsigned := looksLike_ofInt [".inf", ".Inf", ".INF"] (.ofNat n.natAbs)
      (by decide)
    rwa [ofInt, ofNat, String.toList_ofList] at unsigned
  obtain ⟨d, rest, digits, -⟩ := toDigits_cons n.natAbs
  have number := forall_digits (p := (· ≠ '.')) (by decide) n.natAbs d
    (digits ▸ List.mem_cons_self)
  rw [isFloat, unsigned_ofInt]
  simp only [nan, infinity, Bool.and_false, Bool.false_eq_true, if_false]
  split
  · rename_i rest same
    rw [digits] at same
    exact absurd (List.cons.inj same).1 number
  · rw [dropWhile_toDigits]
    simp [sexagesimal?]

theorem isInteger_ofInt (n : Int) : isInteger (ofInt n).toList = true := by
  obtain ⟨d, rest, digits, -⟩ := toDigits_cons n.natAbs
  have number := forall_digits (p := (isDigitChar · = true)) (by decide) n.natAbs d
    (digits ▸ List.mem_cons_self)
  have ended := dropWhile_toDigits n.natAbs
  rw [isInteger, unsigned_ofInt]
  by_cases zero : n.natAbs = 0
  · rw [zero]
    decide
  · have leading : d ≠ '0' := by
      rintro rfl
      exact head?_toDigits zero (by rw [digits, List.head?_cons])
    rw [digits] at ended ⊢
    dsimp only
    split
    · rename_i same
      exact absurd (List.cons.inj same).1 leading
    · rename_i same
      exact absurd (List.cons.inj same).1 leading
    · rename_i same
      exact absurd (List.cons.inj same).1 leading
    · simp [ended, beginsWithDigit, number]

theorem plainTag_ofInt (n : Int) : plainTag (ofInt n) = standard "int" := by
  have letters := forall_ofInt (p := (· ≠ '\n')) (by decide) (by decide) n
  have whole : withoutLastBreak (ofInt n).toList = (ofInt n).toList :=
    if_neg fun ended => letters _ (List.mem_of_getLast? ended) rfl
  have unbroken : (ofInt n == "\n") = false := by
    refine beq_eq_false_iff_ne.mpr fun same => ?_
    rw [same] at letters
    exact letters '\n' (by decide) rfl
  have words : looksLike boolWords (ofInt n).toList = false := looksLike_ofInt _ n (by decide)
  rw [plainTag, whole]
  simp [unbroken, words, isFloat_ofInt, isInteger_ofInt]

/-! ### The value of an integer -/

theorem decimalInteger_toDigits {n : Nat} (writable : isWritable n = true) :
    decimalInteger (Nat.toDigits 10 n) = .ok (n : Int) := by
  have read : integer (String.ofList (Nat.toDigits 10 n)) = .ok (n : Int) := by
    have whole := integer_ofInt n
    rwa [if_pos writable] at whole
  rw [decimalInteger, read]
  rfl

theorem unsignedInteger_toDigits {n : Nat} (writable : isWritable n = true) :
    unsignedInteger (Nat.toDigits 10 n) = .ok (n : Int) := by
  obtain ⟨d, rest, digits, -⟩ := toDigits_cons n
  by_cases zero : n = 0
  · rw [zero]
    rfl
  · have leading : d ≠ '0' := by
      rintro rfl
      exact head?_toDigits zero (by rw [digits, List.head?_cons])
    have colon : (Nat.toDigits 10 n).contains ':' = false := by
      refine Bool.eq_false_iff.mpr fun inside => ?_
      exact forall_digits (p := (· ≠ ':')) (by decide) n ':' (List.contains_iff_mem.mp inside) rfl
    have read := decimalInteger_toDigits writable
    rw [digits] at colon read ⊢
    unfold unsignedInteger
    split
    · rename_i same
      exact absurd (List.cons.inj same).1 leading
    · rename_i same
      exact absurd (List.cons.inj same).1 leading
    · rename_i same
      exact absurd (List.cons.inj same).1 leading
    · rename_i same
      exact absurd (List.cons.inj same).1 leading
    · rename_i same
      cases same
    · rw [colon]
      exact read

/-- An integer is read back, if it has not too many digits. -/
theorem integerValue_ofInt {n : Int} (writable : isWritable n = true) :
    integerValue (ofInt n) = .ok n := by
  obtain ⟨negative, text, value⟩ := ofInt_parts n
  obtain ⟨d, rest, digits, -⟩ := toDigits_cons n.natAbs
  have number := forall_digits (p := fun c => c ≠ '-' ∧ c ≠ '+') (by decide) n.natAbs d
    (digits ▸ List.mem_cons_self)
  have bars : withoutBars (ofInt n) = (ofInt n).toList :=
    List.filter_eq_self.mpr (forall_ofInt (by decide) (by decide) n)
  have split : signed (ofInt n).toList = .ok (negative, Nat.toDigits 10 n.natAbs) := by
    rw [text, digits]
    cases negative with
    | true => rfl
    | false =>
      show signed (d :: rest) = _
      unfold signed
      split
      · rename_i same
        cases same
      · rename_i same
        exact absurd (List.cons.inj same).1 number.1
      · rename_i same
        exact absurd (List.cons.inj same).1 number.2
      · rfl
  rw [integerValue, bars, split, ok_bind]
  dsimp only
  have unsigned : isWritable (n.natAbs : Int) = true := writable
  rw [unsignedInteger_toDigits unsigned, ok_bind]
  exact congrArg Except.ok value.symm

end SessionPlan.Yaml
