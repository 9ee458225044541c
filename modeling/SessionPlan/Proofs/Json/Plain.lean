import SessionPlan.Json.Reader
import SessionPlan.Proofs.Variables.Plain

/-! What JSON text is read as ends somewhere, and its keys are plain. Where the reader fails for
something other than the syntax, that stands in the text: a number with too many digits, or half of
a character. -/
namespace SessionPlan.Json
open SessionPlan.Tree SessionPlan.Text

/-- What the flaw is about stands in the text. -/
def Flaw.StandsIn (limit : Option Nat) (s : List Char) : Flaw → Prop
  | .overlong count => allowsDigits limit count = false ∧
    ∃ digits, digits <:+: s ∧ digits.length = count ∧ ∀ c ∈ digits, isAsciiDigit c = true
  | .halfCharacter => ∃ rest after n, '\\' :: 'u' :: rest <:+ s ∧ unit? rest = some (n, after) ∧
    (isLowUnit n = true ∨ isHighUnit n = true ∧ lowUnit? after = .ok none)
  | _ => True

theorem Flaw.StandsIn.mono {limit : Option Nat} {flaw : Flaw} {s rest : List Char}
    (stands : flaw.StandsIn limit rest) (inside : rest <:+ s) : flaw.StandsIn limit s := by
  unfold StandsIn at stands ⊢
  split at stands
  · obtain ⟨many, digits, run, count, decimal⟩ := stands
    exact ⟨many, digits, run.trans inside.isInfix, count, decimal⟩
  · obtain ⟨after, later, n, escape, number, alone⟩ := stands
    exact ⟨after, later, n, escape.trans inside, number, alone⟩
  · trivial

/-- A reader that begins at `s`: it goes on in the text with what is described, or what is wrong
stands there. -/
abbrev Advances (limit : Option Nat) (described : α → Prop) (s : List Char)
    (x : Except Error (α × List Char)) : Prop :=
  Yields (fun e => e.flaw.StandsIn limit s) (fun found => described found.1 ∧ found.2 <:+ s) x

variable {limit : Option Nat}

/-- What is read later is read from here. -/
theorem Advances.after {described : α → Prop} {s rest : List Char} {x : Except Error (α × List Char)}
    (inside : rest <:+ s) (reads : Advances limit described rest x) : Advances limit described s x :=
  reads.mono (fun _ stands => stands.mono inside)
    fun _ found => ⟨found.1, found.2.trans inside⟩

theorem skipSpace_suffix (s : List Char) : skipSpace s <:+ s := List.dropWhile_suffix _

theorem suffix_of_skipSpace {c : Char} {s rest after : List Char} (inside : rest <:+ s)
    (next : skipSpace rest = c :: after) : after <:+ s := by
  have spaces : c :: after <:+ s := next ▸ (skipSpace_suffix rest).trans inside
  exact (List.suffix_cons c after).trans spaces

/-! ### Texts -/

theorem unit?_suffix {s rest : List Char} {n : Nat} (read : unit? s = some (n, rest)) :
    rest <:+ s := by
  unfold unit? at read
  split at read
  · rename_i a b c d after
    obtain ⟨_, -, read⟩ := Option.bind_eq_some_iff.mp read
    obtain ⟨_, -, read⟩ := Option.bind_eq_some_iff.mp read
    obtain ⟨_, -, read⟩ := Option.bind_eq_some_iff.mp read
    obtain ⟨_, -, read⟩ := Option.bind_eq_some_iff.mp read
    cases read
    exact ⟨[a, b, c, d], rfl⟩
  · cases read

theorem lowUnit?_suffix {s rest : List Char} {n : Nat} (read : lowUnit? s = .ok (some (n, rest))) :
    rest <:+ s := by
  unfold lowUnit? at read
  split at read
  · rename_i digits
    have inside : digits <:+ '\\' :: 'u' :: digits := ⟨['\\', 'u'], rfl⟩
    split at read
    · cases read
    · split at read
      · cases read
      · rename_i m after found
        split at read <;> cases read
        exact (unit?_suffix found).trans inside
  · cases read

/-- An escape is read after its letter. -/
theorem unicodeEscape_reads (s : List Char) :
    Advances limit (fun _ => True) ('\\' :: 'u' :: s) (unicodeEscape s) := by
  have inside : s <:+ '\\' :: 'u' :: s := ⟨['\\', 'u'], rfl⟩
  unfold unicodeEscape
  refine .ite (.error trivial) ?_
  split
  · exact .error trivial
  · rename_i n rest found
    have left := (unit?_suffix found).trans inside
    split
    · rename_i high
      split
      · exact .error trivial
      · rename_i m rest' second
        exact .ok ⟨trivial, (lowUnit?_suffix second).trans left⟩
      · rename_i none
        exact .error ⟨s, rest, n, List.suffix_rfl, found, .inr ⟨high, none⟩⟩
    · split
      · rename_i low
        exact .error ⟨s, rest, n, List.suffix_rfl, found, .inl low⟩
      · exact .ok ⟨trivial, left⟩

theorem stringChars_reads (start : List Char) (fuel : Nat) (s : List Char) :
    Advances limit (fun _ => True) s (stringChars start fuel s) := by
  fun_induction stringChars start fuel s with
  | case1 | case2 | case4 | case6 | case8 => exact .error trivial
  | case3 _ rest => exact .ok ⟨trivial, List.suffix_cons _ rest⟩
  | case5 fuel rest ih =>
    refine (unicodeEscape_reads rest).bind fun ⟨c, after⟩ found => ?_
    exact (Advances.after found.2 (ih after)).bind fun _ later => .ok ⟨trivial, later.2⟩
  | case7 fuel e rest _ c known ih =>
    have inside : rest <:+ '\\' :: e :: rest := ⟨['\\', e], rfl⟩
    exact (Advances.after inside ih).bind fun _ later => .ok ⟨trivial, later.2⟩
  | case9 fuel c rest _ _ _ _ _ ih =>
    exact (Advances.after (List.suffix_cons c rest) ih).bind fun _ later => .ok ⟨trivial, later.2⟩

theorem stringAfterQuote_reads (rest : List Char) :
    Advances limit (fun _ => True) rest (stringAfterQuote rest) :=
  (stringChars_reads _ _ rest).bind fun _ later => .ok ⟨trivial, later.2⟩

/-! ### Numbers -/

theorem fraction_suffix (s : List Char) : (fraction s).2 <:+ s := by
  unfold fraction
  split
  · rename_i c rest
    split
    · exact (List.dropWhile_suffix _).trans (List.suffix_cons '.' (c :: rest))
    · exact List.suffix_rfl
  · exact List.suffix_rfl

theorem exponent?_suffix {s rest : List Char} {e : Int} (read : exponent? s = some (e, rest)) :
    rest <:+ s := by
  unfold exponent? at read
  split at read
  · rename_i letter after
    split at read
    · split at read
      rename_i negative digits signed
      have unsigned : digits <:+ after := by
        split at signed <;> cases signed
        · exact List.suffix_cons _ _
        · exact List.suffix_cons _ _
        · exact List.suffix_rfl
      dsimp only at read
      split at read
      · cases read
      · cases read
        exact (List.dropWhile_suffix _).trans (unsigned.trans (List.suffix_cons letter after))
    · cases read
  · cases read

/-- A number is read, or it has too many digits. -/
theorem number_reads (negative : Bool) (s : List Char) :
    Advances limit IsPlain s (number limit negative s) := by
  have decimal : ∀ c ∈ (if s.head? = some '0' then ['0'] else s.takeWhile isAsciiDigit),
      isAsciiDigit c = true := by
    split
    · exact fun c member => by rw [List.mem_singleton.mp member]; rfl
    · exact fun c member => List.all_eq_true.mp List.all_takeWhile c member
  have begins : (if s.head? = some '0' then ['0'] else s.takeWhile isAsciiDigit) <+: s := by
    split
    · rename_i zero
      obtain ⟨rest, rfl⟩ := List.head?_eq_some_iff.mp zero
      exact ⟨rest, rfl⟩
    · exact List.takeWhile_prefix _
  unfold number
  dsimp only
  generalize (if s.head? = some '0' then ['0'] else s.takeWhile isAsciiDigit) = whole at *
  have point : (fraction (s.drop whole.length)).2 <:+ s :=
    (fraction_suffix _).trans (List.drop_suffix _ _)
  split
  · rename_i power
    exact .ok ⟨trivial, (exponent?_suffix power).trans point⟩
  · refine .ite (.ok ⟨trivial, point⟩) ?_
    split
    · exact .ok ⟨trivial, point⟩
    · rename_i many
      exact .error ⟨Bool.eq_false_iff.mpr many, whole, begins.isInfix, rfl, decimal⟩

/-! ### Values -/

theorem keyword?_reads {s : List Char} {found : Tree × List Char} (read : keyword? s = some found) :
    found.1.IsPlain ∧ found.2 <:+ s := by
  obtain ⟨⟨word, tree⟩, member, rfl⟩ := Option.map_eq_some_iff.mp read
  refine ⟨?_, List.drop_suffix _ _⟩
  have listed := List.mem_of_find?_eq_some member
  simp only [keywords, List.mem_cons, Prod.mk.injEq, List.not_mem_nil, or_false] at listed
  rcases listed with ⟨_, rfl⟩ | ⟨_, rfl⟩ | ⟨_, rfl⟩ | ⟨_, rfl⟩ | ⟨_, rfl⟩ | ⟨_, rfl⟩ <;> trivial

theorem scalar_reads (s : List Char) : Advances limit IsPlain s (scalar limit s) := by
  unfold scalar
  split
  · rename_i found known
    exact .ok (keyword?_reads known)
  · split
    · rename_i rest _
      refine Advances.after (List.suffix_cons _ rest) ?_
      exact (stringAfterQuote_reads rest).bind fun _ later => .ok ⟨trivial, later.2⟩
    · exact .ite (Advances.after (List.suffix_cons _ _) (number_reads _ _)) (.error trivial)
    · exact .ite (number_reads _ _) (.error trivial)
    · exact .error trivial

mutual

theorem value_reads (fuel : Nat) (s : List Char) : Advances limit IsPlain s (value limit fuel s) := by
  unfold value
  split
  · exact .error trivial
  · rename_i rest
    have inside : skipSpace rest <:+ '[' :: rest :=
      (skipSpace_suffix rest).trans (List.suffix_cons _ rest)
    split
    · rename_i after closed
      exact .ok ⟨trivial, suffix_of_skipSpace (List.suffix_cons _ rest) closed⟩
    · exact (Advances.after inside (items_reads _ _)).bind fun _ found => .ok found
  · rename_i rest
    have inside : skipSpace rest <:+ '{' :: rest :=
      (skipSpace_suffix rest).trans (List.suffix_cons _ rest)
    split
    · rename_i after closed
      exact .ok ⟨⟨trivial, .nil⟩, suffix_of_skipSpace (List.suffix_cons _ rest) closed⟩
    · refine (Advances.after inside (members_reads _ _)).bind fun found plain => .ok ⟨?_, plain.2⟩
      exact ⟨havePlain_iff.mpr (forall_mem_ofPairs (havePlain_iff.mp plain.1)),
        pairwise_ofPairs found.1⟩
  · exact scalar_reads _

theorem items_reads (fuel : Nat) (s : List Char) : Advances limit ArePlain s (items limit fuel s) := by
  match fuel with
  | 0 =>
    rw [items]
    exact .error trivial
  | fuel + 1 =>
    rw [items]
    refine (value_reads fuel s).bind fun ⟨first, rest⟩ ⟨plain, left⟩ => ?_
    dsimp only
    split
    · rename_i closed
      exact .ok ⟨⟨plain, trivial⟩, suffix_of_skipSpace left closed⟩
    · rename_i after comma
      have next := (skipSpace_suffix after).trans (suffix_of_skipSpace left comma)
      exact (Advances.after next (items_reads fuel _)).bind fun _ others =>
        .ok ⟨⟨plain, others.1⟩, others.2⟩
    · exact .error trivial

theorem members_reads (fuel : Nat) (s : List Char) :
    Advances limit HavePlain s (members limit fuel s) := by
  match fuel with
  | 0 =>
    rw [members]
    exact .error trivial
  | fuel + 1 =>
    unfold members
    split
    · rename_i quoted
      refine (Advances.after (List.suffix_cons _ quoted) (stringAfterQuote_reads quoted)).bind
        fun ⟨key, rest⟩ ⟨_, left⟩ => ?_
      dsimp only
      split
      · rename_i value colon
        have next := (skipSpace_suffix value).trans (suffix_of_skipSpace left colon)
        refine (Advances.after next (value_reads fuel _)).bind fun ⟨first, rest⟩ ⟨plain, left⟩ => ?_
        dsimp only
        split
        · rename_i closed
          exact .ok ⟨⟨trivial, plain, trivial⟩, suffix_of_skipSpace left closed⟩
        · rename_i after comma
          have next := (skipSpace_suffix after).trans (suffix_of_skipSpace left comma)
          exact (Advances.after next (members_reads fuel _)).bind fun _ others =>
            .ok ⟨⟨trivial, plain, others.1⟩, others.2⟩
        · exact .error trivial
      · exact .error trivial
    · exact .error trivial

end

theorem parseChars_reads (s : List Char) :
    Yields (fun e => e.flaw.StandsIn limit s) IsPlain (parseChars limit s) := by
  unfold parseChars
  refine .ite (.error trivial) ?_
  refine (Advances.after (skipSpace_suffix s) (value_reads _ _)).bind fun found plain => ?_
  dsimp only
  split
  · exact .ok plain.1
  · exact .error trivial

/-- What goes past the guard of the reader of a text. -/
inductive Escapes (text : String) : Fault → Prop
  | number {digits : List Char} (stands : digits <:+: text.toList)
      (decimal : ∀ c ∈ digits, isAsciiDigit c = true) (many : digitLimit < digits.length) :
    Escapes text (.unreadable digits.length)
  | half {rest after : List Char} {n : Nat} (stands : '\\' :: 'u' :: rest <:+ text.toList)
      (number : unit? rest = some (n, after)) (half : 0xd800 ≤ n ∧ n ≤ 0xdfff)
      (alone : isLowUnit n = true ∨ lowUnit? after = .ok none) : Escapes text .halfCharacter

end SessionPlan.Json
