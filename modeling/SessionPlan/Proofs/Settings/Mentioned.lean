import SessionPlan.Proofs.Lists
import SessionPlan.Proofs.Text.Decimal
import SessionPlan.Proofs.Toml.Found
import SessionPlan.Settings.ErrorLine

/-! The line that a message mentions. The reader ends its messages with the place of the error, but
the first mention of a line counts, and a key that is quoted before the place may look like one. -/
namespace SessionPlan.Settings
open SessionPlan.Text

/-! ### Mentions -/

/-- A character that no mention of a line goes past. -/
structure StopsMention (c : Char) : Prop where
  letter : ['l', 'i', 'n', 'e'].any (isLetter · c) = false
  blank : isBlank c = false
  decimal : isDecimal c = false

section
variable {stop : Char}

theorem afterLineWord?_stopped (stops : StopsMention stop) (s rest : List Char) :
    afterLineWord? (s ++ stop :: rest) = (afterLineWord? s).map (· ++ stop :: rest) := by
  have no {letter : Char} (known : letter ∈ ['l', 'i', 'n', 'e']) : isLetter letter stop = false :=
    eq_false_of_ne_true (List.any_eq_false.mp stops.letter letter known)
  match s with
  | [] => rcases rest with _ | ⟨a, _ | ⟨b, _ | ⟨c, rest⟩⟩⟩ <;> simp [afterLineWord?, no]
  | [l] => rcases rest with _ | ⟨a, _ | ⟨b, rest⟩⟩ <;> simp [afterLineWord?, no]
  | [l, i] => rcases rest with _ | ⟨a, rest⟩ <;> simp [afterLineWord?, no]
  | [l, i, n] => simp [afterLineWord?, no]
  | l :: i :: n :: e :: s =>
    simp only [List.cons_append, afterLineWord?]
    split <;> rfl

theorem digitsAfterBlanks?_stopped (stops : StopsMention stop) (s rest : List Char) :
    digitsAfterBlanks? (s ++ stop :: rest) = digitsAfterBlanks? s := by
  have blanks (s : List Char) : dropBlanks (s ++ stop :: rest) = dropBlanks s ++ stop :: rest := by
    induction s with
    | nil => simp [dropBlanks, stops.blank]
    | cons c s ih =>
      simp only [dropBlanks, List.cons_append, List.dropWhile_cons] at ih ⊢
      split
      · exact ih
      · rfl
  have digits (s : List Char) :
      (s ++ stop :: rest).takeWhile isDecimal = s.takeWhile isDecimal := by
    induction s with
    | nil => simp [stops.decimal]
    | cons c s ih => simp only [List.cons_append, List.takeWhile_cons, ih]
  cases s with
  | nil => simp [digitsAfterBlanks?, stops.blank]
  | cons c s => simp only [digitsAfterBlanks?, List.cons_append, blanks, digits]

/-- Before such a character and after it mentions are found apart. -/
theorem mentionedDigits?_stopped (stops : StopsMention stop) (s rest : List Char) :
    mentionedDigits? (s ++ stop :: rest) = (mentionedDigits? s).or (mentionedDigits? rest) := by
  induction s with
  | nil =>
    have none := afterLineWord?_stopped stops [] rest
    rw [List.nil_append] at none
    have first : mentionedDigits? (stop :: rest) =
        ((afterLineWord? (stop :: rest)).bind digitsAfterBlanks?).or (mentionedDigits? rest) := rfl
    rw [List.nil_append, first, none]
    rfl
  | cons c s ih =>
    have here := afterLineWord?_stopped stops (c :: s) rest
    rw [List.cons_append] at here
    rw [List.cons_append, mentionedDigits?, mentionedDigits?, here, ih, Option.or_assoc]
    cases afterLineWord? (c :: s) with
    | none => rfl
    | some after => exact congrArg (Option.or · _) (digitsAfterBlanks?_stopped stops after rest)

end

theorem digitsAfterBlanks?_eq_some {s digits : List Char}
    (found : digitsAfterBlanks? s = some digits) :
    digits ≠ [] ∧ ∀ c ∈ digits, isDecimal c = true := by
  unfold digitsAfterBlanks? at found
  split at found
  · cases found
  · dsimp only at found
    split at found
    · rename_i some_digit
      cases found
      simp only [Bool.and_eq_true, Bool.not_eq_true', List.isEmpty_eq_false_iff] at some_digit
      exact ⟨some_digit.2, fun c member => List.all_eq_true.mp List.all_takeWhile c member⟩
    · cases found

theorem mentionedDigits?_eq_some {s digits : List Char}
    (mentioned : mentionedDigits? s = some digits) :
    digits ≠ [] ∧ ∀ c ∈ digits, isDecimal c = true := by
  induction s with
  | nil => cases mentioned
  | cons c rest ih =>
    rw [mentionedDigits?, Option.or_eq_some_iff] at mentioned
    rcases mentioned with here | ⟨-, later⟩
    · obtain ⟨after, -, found⟩ := Option.bind_eq_some_iff.mp here
      exact digitsAfterBlanks?_eq_some found
    · exact ih later

/-- The digits of a mention write a number. -/
theorem isSome_digitsValue? {s digits : List Char} (mentioned : mentionedDigits? s = some digits) :
    (digitsValue? 0 false digits).isSome = true := by
  obtain ⟨nonempty, decimals⟩ := mentionedDigits?_eq_some mentioned
  have digit : ∀ c ∈ digits, isDigit c = true := fun c member => by
    rw [isDigit, decimals c member, Bool.true_or]
  rw [digitsValue?_digits digit 0 false (.inl nonempty), if_pos (List.all_eq_true.mpr decimals)]
  rfl

theorem mentionedLine?_eq_none {s : List Char} :
    mentionedLine? s = none ↔ mentionedDigits? s = none := by
  cases mentioned : mentionedDigits? s with
  | none => simp [mentionedLine?, mentioned]
  | some digits =>
    have value := isSome_digitsValue? mentioned
    rw [mentionedLine?, mentioned, Option.bind_some]
    exact iff_of_false (Option.isSome_iff_ne_none.mp value) nofun

/-- A place in a text, as errors name it. -/
def placeText (line column : Nat) : String :=
  "at line " ++ ofNat line ++ ", column " ++ ofNat column ++ ")"

/-- The note of its place that an error ends with. -/
def placeNote (line column : Nat) : String := "(" ++ placeText line column

theorem placeNote_toList (line column : Nat) :
    (placeNote line column).toList = '(' :: (placeText line column).toList := by
  rw [placeNote, String.toList_append]
  rfl

theorem placeText_toList (line column : Nat) : (placeText line column).toList =
    ['a', 't', ' ', 'l', 'i', 'n', 'e', ' '] ++ (ofNat line).toList ++
      ',' :: (" column ".toList ++ ((ofNat column).toList ++ ")".toList)) := by
  have start : "at line ".toList = ['a', 't', ' ', 'l', 'i', 'n', 'e', ' '] := by decide
  have comma : ", column ".toList = ',' :: " column ".toList := by decide
  simp only [placeText, String.toList_append, start, comma, List.append_assoc, List.cons_append]

theorem digitsAfterBlanks?_ofNat (n : Nat) (after : List Char) :
    digitsAfterBlanks? (' ' :: ((ofNat n).toList ++ ',' :: after)) =
      some (Nat.toDigits 10 n) := by
  have decimal : ∀ c ∈ (ofNat n).toList, isDecimal c = true := fun c member => by
    rw [isDecimal, decimalValue?_ascii (isDigit_of_mem_ofNat member)]
    rfl
  obtain ⟨first, others, chars⟩ := List.exists_cons_of_ne_nil (ofNat_toList_ne_nil n)
  have solid : isBlank first = false :=
    isDigit_not_blank (isDigit_ascii (isDigit_of_mem_ofNat (chars ▸ List.mem_cons_self)))
  have begins : dropBlanks ((ofNat n).toList ++ ',' :: after) = (ofNat n).toList ++ ',' :: after := by
    simp [chars, dropBlanks, solid]
  have digits : ((ofNat n).toList ++ ',' :: after).takeWhile isDecimal = (ofNat n).toList := by
    have comma : isDecimal ',' = false := by decide
    rw [List.takeWhile_append_of_pos decimal, List.takeWhile_cons, comma]
    exact List.append_nil _
  have blank : isBlank ' ' = true := by decide
  have nonempty : (ofNat n).toList.isEmpty = false := by simp [chars]
  simp only [digitsAfterBlanks?, begins, digits, blank, nonempty, Bool.not_false, Bool.and_self,
    if_true]
  rw [ofNat, String.toList_ofList]

theorem mentionedDigits?_placeText (line column : Nat) :
    mentionedDigits? (placeText line column).toList = some (Nat.toDigits 10 line) := by
  have word (after : List Char) :
      mentionedDigits? ('a' :: 't' :: ' ' :: 'l' :: 'i' :: 'n' :: 'e' :: ' ' :: after) =
        (digitsAfterBlanks? (' ' :: after)).or
          (mentionedDigits? ('i' :: 'n' :: 'e' :: ' ' :: after)) := rfl
  rw [placeText_toList]
  simp only [List.cons_append, List.nil_append]
  rw [word, digitsAfterBlanks?_ofNat, Option.some_or]

/-- A message mentions the line of its place, unless it has mentioned one before. -/
theorem mentionedDigits?_placeNote (before : String) (line column : Nat) :
    mentionedDigits? (before ++ placeNote line column).toList =
      (mentionedDigits? before.toList).or (some (Nat.toDigits 10 line)) := by
  have stops : StopsMention '(' := ⟨by decide, by decide, by decide⟩
  rw [String.toList_append, placeNote_toList, mentionedDigits?_stopped stops,
    mentionedDigits?_placeText]

theorem mentionedLine?_placeText (line column : Nat) :
    mentionedLine? (placeText line column).toList = some line := by
  rw [mentionedLine?, mentionedDigits?_placeText, Option.bind_some, digitsValue?_toDigits]

theorem mentionedLine?_placeNote (before : String) (line column : Nat) :
    mentionedLine? (before ++ placeNote line column).toList =
      (mentionedLine? before.toList).or (some line) := by
  rw [mentionedLine?, mentionedDigits?_placeNote]
  cases mentioned : mentionedDigits? before.toList with
  | none =>
    rw [mentionedLine?_eq_none.mpr mentioned, Option.none_or, Option.none_or, Option.bind_some,
      digitsValue?_toDigits]
  | some digits =>
    obtain ⟨n, value⟩ := Option.isSome_iff_exists.mp (isSome_digitsValue? mentioned)
    rw [mentionedLine?, mentioned, Option.some_or, Option.bind_some, value]
    rfl

/-! ### Messages of the reader -/

theorem not_mem_placeText (line column : Nat) : '(' ∉ (placeText line column).toList := by
  have digits (n : Nat) : '(' ∉ (ofNat n).toList := fun member =>
    absurd (isDigit_of_mem_ofNat member) (by decide)
  have marks : '(' ∉ "at line ".toList ∧ '(' ∉ ", column ".toList ∧ '(' ∉ ")".toList := by decide
  unfold placeText
  simp only [String.toList_append, List.mem_append, not_or, digits, marks, not_false_eq_true,
    and_self]

/-- A message that ends with the note of a line is about an error in that line. -/
theorem message_eq_placeNote {whole : List Char} {e : Toml.Error} {before : String}
    {line column : Nat} (same : e.message whole = before ++ placeNote line column) :
    e.rest ≠ [] ∧ (whole.take (whole.length - e.rest.length)).count '\n' + 1 = line ∧
      before = e.flaw.words ++ " " := by
  have note (place inner : String) (inside : "at " ++ place ++ ")" = inner)
      (unmarked : '(' ∉ inner.toList)
      (told : e.flaw.words ++ " (at " ++ place ++ ")" = before ++ placeNote line column) :
      before = e.flaw.words ++ " " ∧ mentionedLine? inner.toList = some line := by
    have opened : " (at ".toList = " ".toList ++ '(' :: "at ".toList := by decide
    have chars := congrArg String.toList told
    rw [String.toList_append, String.toList_append, String.toList_append, opened,
      String.toList_append, placeNote_toList] at chars
    have apart : (e.flaw.words ++ " ").toList ++ '(' :: inner.toList =
        before.toList ++ '(' :: (placeText line column).toList := by
      rw [← chars, ← inside]
      simp only [String.toList_append, List.append_assoc, List.cons_append]
    obtain ⟨front, back⟩ := append_cons_inj_of_last apart unmarked (not_mem_placeText line column)
    exact ⟨(String.toList_inj.mp front).symm, by rw [back, mentionedLine?_placeText]⟩
  by_cases ended : e.rest = []
  · have place : Toml.placeOf whole e.rest = "end of document" := by rw [Toml.placeOf, ended]; rfl
    rw [Toml.Error.message, place] at same
    obtain ⟨-, mentioned⟩ := note _ "at end of document)" (by decide) (by decide) same
    have none : mentionedLine? "at end of document)".toList = none := by decide
    exact absurd (none.symm.trans mentioned) nofun
  · obtain ⟨m, place⟩ : ∃ m, Toml.placeOf whole e.rest = "line " ++
        ofNat ((whole.take (whole.length - e.rest.length)).count '\n' + 1) ++ ", column " ++
          ofNat m := ⟨_, by rw [Toml.placeOf, if_neg (by simpa using ended)]⟩
    have inside (n m : Nat) : "at " ++ ("line " ++ ofNat n ++ ", column " ++ ofNat m) ++ ")" =
        placeText n m := by
      have word : "at " ++ "line " = "at line " := by decide
      simp only [placeText, ← word, String.append_assoc]
    rw [Toml.Error.message, place] at same
    obtain ⟨front, mentioned⟩ := note _ _ (inside _ _) (not_mem_placeText _ _) same
    rw [mentionedLine?_placeText] at mentioned
    exact ⟨ended, Option.some.inj mentioned, front⟩

/-- Flaws whose words quote a key. -/
def QuotesKey : Toml.Flaw → Prop
  | .declaredTwice _ | .redefined _ | .immutable _ | .inlineKeyTwice _ => True
  | _ => False

/-- A control character is quoted by an escape, which mentions no line. -/
theorem mentionedDigits?_quotedControl {c : Char} (control : Toml.isControl c = true)
    (words : String) :
    mentionedDigits? (words ++ quoted c.toString ++ " ").toList = mentionedDigits? words.toList := by
  have each : ∀ n ∈ 0x7f :: List.range 0x20, (quotedList [Char.ofNat n]).head? = some '\'' ∧
      mentionedDigits? ((quotedList [Char.ofNat n]).tail ++ [' ']) = none := by decide +kernel
  have low : c.toNat ∈ 0x7f :: List.range 0x20 := by
    simp only [Toml.isControl, Bool.and_eq_true, Bool.or_eq_true, decide_eq_true_eq,
      beq_iff_eq] at control
    rw [List.mem_cons, List.mem_range]
    omega
  obtain ⟨head, silent⟩ := each _ low
  rw [Char.ofNat_toNat] at head silent
  obtain ⟨rest, chars⟩ := List.head?_eq_some_iff.mp head
  rw [chars, List.tail_cons] at silent
  have stops : StopsMention '\'' := ⟨by decide, by decide, by decide⟩
  have whole : (words ++ quoted c.toString ++ " ").toList =
      words.toList ++ '\'' :: (rest ++ [' ']) := by
    have single : c.toString.toList = [c] := String.toList_singleton c
    have blank : " ".toList = [' '] := by decide
    rw [String.toList_append, String.toList_append, quoted, String.toList_ofList, single, chars,
      blank, List.append_assoc, List.cons_append]
  rw [whole, mentionedDigits?_stopped stops, silent, Option.or_none]

/-- What the reader says in its own words mentions no line. -/
theorem mentionedDigits?_words {flaw : Toml.Flaw} {s : List Char} (found : flaw.IsFoundIn s)
    (short : ∀ digits, flaw ≠ .overlong digits) (unquoted : ¬QuotesKey flaw) :
    mentionedDigits? (flaw.words ++ " ").toList = none := by
  cases flaw with
  | overlong digits => exact absurd rfl (short digits)
  | declaredTwice | redefined | immutable | inlineKeyTwice => exact absurd trivial unquoted
  | quoteMissing quote => rcases found with rfl | rfl <;> decide
  | characterInvalid c => exact (mentionedDigits?_quotedControl found _).trans (by decide)
  | characterIllegal c => exact (mentionedDigits?_quotedControl found _).trans (by decide)
  | _ => decide

end SessionPlan.Settings
