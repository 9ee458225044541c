import SessionPlan.Proofs.Yaml.Cursor
import SessionPlan.Yaml.Lexer
import Mathlib.Data.List.TakeWhile

/-! What stops the cutting of a text into tokens. Nearly all that can be wrong is a flaw with a
line; the exceptions are escapes for what is no character and versions with too many digits. -/
namespace SessionPlan.Yaml

/-- A flaw, or one of these faults. -/
def Error.Among (faults : Fault → Prop) : Error → Prop
  | .flaw .. => True
  | .fault f => faults f

/-- Where a number of a version can stand: after the name of its directive, with no more than
spaces, digits and a point between them. -/
def InVersion (text rest : List Char) : Prop :=
  ∃ lead, "YAML".toList ++ lead ++ rest <:+ text ∧
    ∀ ch ∈ lead, ch = ' ' ∨ ch = '.' ∨ isDigitChar ch = true

/-- What is taken without a guard: an escape of eight digits whose number is past the last code
point; one for half of a character; and a number in a version that has too many digits. -/
inductive Unscanned (text : List Char) : Fault → Prop
  | wide {rest : List Char} {code : Nat} (stands : '\\' :: 'U' :: rest <:+ text)
      (number : hexNumber 0 8 rest = .ok code) (far : 0x7fffffff < code) :
    Unscanned text .tooLarge
  | beyond {rest : List Char} {code : Nat} (stands : '\\' :: 'U' :: rest <:+ text)
      (number : hexNumber 0 8 rest = .ok code) (far : 0x10ffff < code)
      (narrow : code ≤ 0x7fffffff) :
    Unscanned text (.outOfRange "chr() arg not in range(0x110000)")
  | half {letter : Char} {rest : List Char} {count code : Nat}
      (stands : '\\' :: letter :: rest <:+ text)
      (counted : escapeLengths.lookup letter = some count)
      (number : hexNumber 0 count rest = .ok code) (half : 0xd800 ≤ code ∧ code ≤ 0xdfff) :
    Unscanned text .halfCharacter
  | version {rest : List Char} (stands : InVersion text rest)
      (many : Text.digitLimit < (rest.takeWhile isDigitChar).length) :
    Unscanned text (.unreadable (rest.takeWhile isDigitChar).length)

/-- The computation stops at a flaw or at one of these, and it goes on inside the text. -/
abbrev Scans (text : List Char) (x : Except Error (α × Cursor)) : Prop :=
  Yields (Error.Among (Unscanned text)) (fun found => found.2.Within text) x

variable {text : List Char} {c : Cursor}

/-! ### Scalars -/

theorem hexValue?_lt {c : Char} {n : Nat} (h : hexValue? c = some n) : n < 16 := by
  have upTo (a b : Char) : (a ≤ b) = (a.toNat ≤ b.toNat) := rfl
  simp only [hexValue?, Bool.and_eq_true, decide_eq_true_eq, upTo] at h
  split at h
  · rename_i digit
    have high : c.toNat ≤ 57 := digit.2
    cases h
    omega
  · split at h
    · rename_i letter
      have high : c.toNat ≤ 102 := letter.2
      cases h
      omega
    · split at h
      · rename_i letter
        have high : c.toNat ≤ 70 := letter.2
        cases h
        omega
      · cases h

theorem hexNumber_lt {value count code : Nat} {s : List Char}
    (h : hexNumber value count s = .ok code) : code < (value + 1) * Nat.pow 16 count := by
  induction count generalizing value s with
  | zero =>
    cases h
    exact Nat.lt_of_lt_of_eq (Nat.lt_succ_self code) (Nat.mul_one _).symm
  | succ count ih =>
    cases s with
    | nil => cases h
    | cons c rest =>
      rw [hexNumber] at h
      cases digit : hexValue? c with
      | none =>
        rw [digit] at h
        cases h
      | some d =>
        rw [digit] at h
        have small := hexValue?_lt digit
        calc code < (16 * value + d + 1) * Nat.pow 16 count := ih h
          _ ≤ ((value + 1) * 16) * Nat.pow 16 count := Nat.mul_le_mul_right _ (by omega)
          _ = (value + 1) * (Nat.pow 16 count * 16) := by
            rw [Nat.mul_assoc, Nat.mul_comm 16]

theorem escapeLengths_lookup {ch : Char} {count : Nat}
    (known : escapeLengths.lookup ch = some count) : count ≤ 4 ∨ ch = 'U' ∧ count = 8 := by
  unfold escapeLengths at known
  simp only [List.lookup_cons, List.lookup_nil] at known
  split at known
  · cases known
    exact .inl (by decide)
  · split at known
    · cases known
      exact .inl (by decide)
    · split at known
      · rename_i same
        cases known
        exact .inr ⟨eq_of_beq same, rfl⟩
      · cases known

theorem escapeLengths_ne_zero {ch : Char} {count : Nat}
    (known : escapeLengths.lookup ch = some count) : ch ≠ '\x00' := by
  rintro rfl
  cases known

theorem quotedBreaks_scans (fuel : Nat) (h : c.Within text) :
    Scans text (quotedBreaks fuel c) := by
  induction fuel generalizing c with
  | zero => exact .ok h
  | succ fuel ih =>
    unfold quotedBreaks
    dsimp only
    split
    · exact .error trivial
    · have blanks := h.skipWhile fun ch => ch == ' ' || ch == '\t'
      split
      · exact .ok blanks
      · rename_i found
        exact (ih (blanks.lineBreak? found)).bind fun _ more => .ok more

/-- Only the long escape can write a number past the last code point. -/
theorem escapeSequence_scans (h : '\\' :: c.rest <:+ text) : Scans text (escapeSequence c) := by
  have inside : c.Within text := (List.suffix_cons _ _).trans h
  unfold escapeSequence
  split
  · exact .ok inside.next
  · rename_i count none known
    split
    · exact .error trivial
    · rename_i code number
      have long (far : 0x10ffff < code) : count = 8 ∧ '\\' :: 'U' :: c.next.rest <:+ text := by
        have bound := hexNumber_lt number
        rcases escapeLengths_lookup known with short | ⟨letter, rfl⟩
        · have few : Nat.pow 16 count ≤ 0x10000 := Nat.pow_le_pow_right (by decide) short
          omega
        · exact ⟨rfl, Cursor.rest_eq_cons letter (by decide) ▸ h⟩
      dsimp only
      split
      · rename_i far
        obtain ⟨rfl, stands⟩ := long (by omega)
        exact .error (.wide stands number far)
      · split
        · rename_i narrow far
          obtain ⟨rfl, stands⟩ := long far
          exact .error (.beyond stands number far (by omega))
        · split
          · rename_i half
            have stands : '\\' :: c.peek :: c.next.rest <:+ text :=
              Cursor.rest_eq_cons rfl (escapeLengths_ne_zero known) ▸ h
            refine .error (.half stands known number ?_)
            simp only [Nat.isValidChar, Bool.not_eq_true', decide_eq_false_iff_not] at half
            omega
          · exact .ok (inside.next.forward _)
  · split
    · rename_i found
      exact quotedBreaks_scans _ (inside.lineBreak? found)
    · exact .error trivial

theorem quotedSpaces_scans (h : c.Within text) : Scans text (quotedSpaces c) := by
  have blanks := h.takeWhile fun ch => ch == ' ' || ch == '\t'
  unfold quotedSpaces
  dsimp only
  split
  · exact .error trivial
  · split
    · exact .ok blanks
    · rename_i found
      exact (quotedBreaks_scans _ (blanks.lineBreak? found)).bind fun _ more => .ok more

theorem quotedFrom_scans (double : Bool) (fuel : Nat) (h : c.Within text) :
    Scans text (quotedFrom double fuel c) := by
  induction fuel generalizing c with
  | zero => exact .error trivial
  | succ fuel ih =>
    have goesOn (piece : List Char) {after : Cursor} (inside : after.Within text) :
        Scans text (quotedFrom double fuel after >>= fun found =>
          pure (piece ++ found.1, found.2)) := (ih inside).bind fun _ more => .ok more
    unfold quotedFrom
    dsimp only
    generalize (if double = true then '"' else '\'') = quote
    split
    · exact goesOn _ (h.forward 2)
    · split
      · exact .ok h
      · split
        · rename_i escape
          simp only [Bool.and_eq_true, beq_iff_eq] at escape
          have stands := Cursor.rest_eq_cons escape.2 (by decide)
          refine (escapeSequence_scans ?_).bind fun found inside => goesOn found.1 inside
          exact stands ▸ h
        · split
          · exact (quotedSpaces_scans h).bind fun found inside => goesOn found.1 inside
          · exact goesOn _ h.next

theorem quotedScalar_scans (double : Bool) (h : c.Within text) :
    Scans text (quotedScalar double c) :=
  (quotedFrom_scans double _ h.next).bind fun _ inside => .ok inside.next

theorem increment?_scans (h : c.Within text) : Scans text (increment? c) := by
  unfold increment?
  split
  · split
    · exact .error trivial
    · exact .ok h.next
  · exact .ok h

theorem blockHeader_scans (h : c.Within text) :
    Yields (Error.Among (Unscanned text)) (fun found => found.2.2.Within text) (blockHeader c) := by
  have ending {chomping : Chomping} {increment : Option Nat} {after : Cursor}
      (inside : after.Within text) :
      Yields (Error.Among (Unscanned text)) (fun found => found.2.2.Within text)
        (if (!endsLineOrSpace after.peek) = true then
          (after.fail (.headerUnknown after.peek) : Except Error Unit) >>= fun _ =>
            pure (chomping, increment, after)
        else pure (chomping, increment, after)) := by
    split
    · exact .error trivial
    · exact .ok inside
  unfold blockHeader
  dsimp only
  split
  · exact (increment?_scans h.next).bind fun _ inside => ending inside
  · refine (increment?_scans h).bind fun found inside => ?_
    split
    · exact ending inside.next
    · exact ending inside

theorem restOfLine_scans (h : c.Within text) :
    Yields (Error.Among (Unscanned text)) (Cursor.Within text) (restOfLine c) := by
  have comment : (if c.skipSpaces.peek == '#' then c.skipSpaces.skipToLineEnd
      else c.skipSpaces).Within text := by
    split
    · exact h.skipSpaces.skipToLineEnd
    · exact h.skipSpaces
  unfold restOfLine
  dsimp only
  generalize (if c.skipSpaces.peek == '#' then c.skipSpaces.skipToLineEnd else c.skipSpaces) = after
    at comment
  split
  · exact .error trivial
  · exact .ok comment.skipBreak

/-! Plain text and the lines of blocks are never refused. -/

namespace Cursor.Within

theorem plainBreaks (fuel : Nat) (h : c.Within text) :
    (Yaml.plainBreaks fuel c).2.Within text := by
  induction fuel generalizing c with
  | zero => exact h
  | succ fuel ih =>
    unfold Yaml.plainBreaks
    dsimp only
    split
    · exact h.skipSpaces
    · rename_i found
      have after := h.skipSpaces.lineBreak? found
      split
      · exact after
      · exact ih after

theorem plainSpaces (h : c.Within text) : (Yaml.plainSpaces c).2.2.Within text := by
  have blanks := h.takeWhile (· == ' ')
  unfold Yaml.plainSpaces
  dsimp only
  split
  · exact blanks
  · rename_i first next found
    have after := blanks.lineBreak? found
    split
    · exact after
    · have breaks := after.plainBreaks (next.rest.length + 1)
      split
      all_goals
        rename_i read
        rw [read] at breaks
        exact breaks

theorem plainFrom (inFlow : Bool) (indent : Int) (pending : List Char) (ended : Bool) (fuel : Nat)
    (h : c.Within text) : (Yaml.plainFrom inFlow indent pending ended fuel c).2.2.Within text := by
  induction fuel generalizing c pending ended with
  | zero => exact h
  | succ fuel ih =>
    have spaces (n : Nat) := (h.forward n).plainSpaces
    unfold Yaml.plainFrom
    dsimp only
    generalize (if (c.peek == '#') = true then 0 else plainLength inFlow c.rest) = length
    split
    · exact h
    · split
      · exact spaces _
      · exact ih _ _ (spaces _)

theorem plainScalar (inFlow : Bool) (indent : Int) (h : c.Within text) :
    (Yaml.plainScalar inFlow indent c).2.2.Within text :=
  h.plainFrom inFlow indent [] false (c.rest.length + 1)

theorem blockIndentation (widest fuel : Nat) (h : c.Within text) :
    (Yaml.blockIndentation widest fuel c).2.2.Within text := by
  induction fuel generalizing c widest with
  | zero => exact h
  | succ fuel ih =>
    unfold Yaml.blockIndentation
    split
    · exact ih _ h.next
    · split
      · exact h
      · rename_i found
        exact ih _ (h.lineBreak? found)

theorem skipIndent (indent : Int) (fuel : Nat) (h : c.Within text) :
    (Yaml.skipIndent indent fuel c).Within text := by
  induction fuel generalizing c with
  | zero => exact h
  | succ fuel ih =>
    unfold Yaml.skipIndent
    split
    · exact ih h.next
    · exact h

theorem blockBreaks (indent : Int) (fuel : Nat) (h : c.Within text) :
    (Yaml.blockBreaks indent fuel c).2.Within text := by
  induction fuel generalizing c with
  | zero => exact h
  | succ fuel ih =>
    have spaces := h.skipIndent indent c.rest.length
    unfold Yaml.blockBreaks
    dsimp only
    split
    · exact spaces
    · rename_i found
      exact ih (spaces.lineBreak? found)

theorem blockLines (folded : Bool) (indent : Int) (fuel : Nat) {b : BlockText}
    (h : b.cursor.Within text) : (Yaml.blockLines folded indent fuel b).cursor.Within text := by
  induction fuel generalizing b with
  | zero => exact h
  | succ fuel ih =>
    have line := h.takeWhile (!isBreak ·)
    unfold Yaml.blockLines
    dsimp only
    split
    · exact h
    · split
      · rename_i found
        have lineEnd := line.lineBreak? found
        dsimp only
        split
        · refine ih ?_
          exact lineEnd.blockBreaks _ _
        · exact lineEnd.blockBreaks _ _
      · dsimp only
        split
        · refine ih ?_
          exact line.blockBreaks _ _
        · exact line.blockBreaks _ _

end Cursor.Within

theorem blockScalar_scans (folded : Bool) (parent : Int) (h : c.Within text) :
    Scans text (blockScalar folded parent c) := by
  unfold blockScalar
  refine (blockHeader_scans h.next).bind fun header inside => ?_
  refine (restOfLine_scans inside).bind fun line inside => ?_
  refine .ok (Cursor.Within.blockLines _ _ _ ?_)
  dsimp only
  split
  · exact inside.blockIndentation _ _
  · exact inside.blockBreaks _ _

/-! ### Names, tags and directives -/

theorem anchorName_scans (h : c.Within text) : Scans text (anchorName c) := by
  unfold anchorName
  dsimp only
  split
  · exact .error trivial
  · split
    · exact .error trivial
    · exact .ok (h.next.takeWhile _)

theorem tagHandle_scans (h : c.Within text) : Scans text (tagHandle c) := by
  unfold tagHandle
  dsimp only
  split
  · exact .error trivial
  · split
    · exact .ok h.next
    · split
      · exact .error trivial
      · exact .ok (h.next.takeWhile _).next

theorem uriBytes_scans (fuel : Nat) (h : c.Within text) : Scans text (uriBytes fuel c) := by
  induction fuel generalizing c with
  | zero => exact .ok h
  | succ fuel ih =>
    unfold uriBytes
    split
    · exact .ok h
    · split
      · exact .error trivial
      · exact (ih (h.forward 3)).bind fun _ inside => .ok inside

theorem tagUriFrom_scans (fuel : Nat) (h : c.Within text) : Scans text (tagUriFrom fuel c) := by
  induction fuel generalizing c with
  | zero => exact .ok h
  | succ fuel ih =>
    unfold tagUriFrom
    split
    · exact (ih h.next).bind fun _ inside => .ok inside
    · split
      · refine (uriBytes_scans _ h).bind fun bytes inside => ?_
        dsimp only
        split
        · exact .error trivial
        · exact (ih inside).bind fun _ inside => .ok inside
      · exact .ok h

theorem tagUri_scans (h : c.Within text) : Scans text (tagUri c) := by
  refine (tagUriFrom_scans _ h).bind fun found inside => ?_
  dsimp only
  split
  · exact .error trivial
  · exact .ok inside

/-- A token or directive counts only if white space follows it. -/
theorem spaced_scans {found : α} (flaw : Char → Flaw) (h : c.Within text) :
    Scans text (if (!endsLineOrSpace c.peek) = true then
      (c.fail (flaw c.peek) : Except Error Unit) >>= fun _ => pure (found, c)
      else pure (found, c)) := by
  split
  · exact .error trivial
  · exact .ok h

theorem scanTag_scans (h : c.Within text) : Scans text (scanTag c) := by
  have named {handle : String} {after : Cursor} (inside : after.Within text) :
      Scans text (tagUri after >>= fun found =>
        if (!endsLineOrSpace found.2.peek) = true then
          (found.2.fail (.spaceExpected found.2.peek) : Except Error Unit) >>= fun _ =>
            pure (Token.tag (some handle) found.1, found.2)
        else pure (Token.tag (some handle) found.1, found.2)) :=
    (tagUri_scans inside).bind fun _ inside => spaced_scans .spaceExpected inside
  unfold scanTag
  dsimp only
  split
  · refine (tagUri_scans (h.forward 2)).bind fun found inside => ?_
    split
    · exact .error trivial
    · exact spaced_scans .spaceExpected inside.next
  · split
    · exact spaced_scans .spaceExpected h.next
    · split
      · exact (tagHandle_scans h).bind fun _ inside => named inside
      · exact named h.next

theorem InVersion.within {rest : List Char} (stands : InVersion text rest) : rest <:+ text := by
  obtain ⟨lead, stands, -⟩ := stands
  exact (List.suffix_append _ _).trans stands

/-- What may stand in a version is passed over. -/
theorem InVersion.takeWhile (stands : InVersion text c.rest) {p : Char → Bool}
    (passed : ∀ ch, p ch = true → ch = ' ' ∨ ch = '.' ∨ isDigitChar ch = true) :
    InVersion text (c.takeWhile p).2.rest := by
  obtain ⟨lead, stands, known⟩ := stands
  refine ⟨lead ++ (c.takeWhile p).1, ?_, List.forall_mem_append.mpr ⟨known, fun ch member => ?_⟩⟩
  · rwa [List.append_assoc, List.append_assoc, c.takeWhile_append_rest, ← List.append_assoc]
  · exact passed ch (List.mem_takeWhile_imp member)

theorem InVersion.point (stands : InVersion text c.rest) (point : c.peek = '.') :
    InVersion text c.next.rest := by
  obtain ⟨lead, stands, known⟩ := stands
  rw [Cursor.rest_eq_cons point (by decide)] at stands
  refine ⟨lead ++ ['.'], by simpa using stands, List.forall_mem_append.mpr ⟨known, ?_⟩⟩
  simp

theorem directiveNumber_yields (stands : InVersion text c.rest) :
    Yields (Error.Among (Unscanned text)) (fun found => InVersion text found.2.rest)
      (directiveNumber c) := by
  unfold directiveNumber
  dsimp only
  split
  · exact .error trivial
  · split
    · rename_i many
      exact .error (.version stands many)
    · exact .ok (stands.takeWhile fun _ digit => .inr (.inr digit))

theorem versionDirective_scans (stands : InVersion text c.rest) :
    Scans text (versionDirective c) := by
  have spaced : InVersion text c.skipSpaces.rest :=
    stands.takeWhile fun _ space => .inl (beq_iff_eq.mp space)
  refine (directiveNumber_yields spaced).bind fun major stands => ?_
  dsimp only
  split
  · exact .error trivial
  · rename_i point
    have next : InVersion text major.2.next.rest := stands.point (by simpa using point)
    exact (directiveNumber_yields next).bind fun _ stands =>
      spaced_scans .versionEndExpected stands.within

theorem tagDirective_scans (h : c.Within text) : Scans text (tagDirective c) := by
  refine (tagHandle_scans h.skipSpaces).bind fun handle inside => ?_
  dsimp only
  split
  · exact .error trivial
  · exact (tagUri_scans inside.skipSpaces).bind fun _ inside => spaced_scans .spaceExpected inside

theorem scanDirective_scans (h : c.Within text) : Scans text (scanDirective c) := by
  have ending (directive : Directive) {after : Cursor} (inside : after.Within text) :
      Scans text (restOfLine after >>= fun last => pure (Token.directive directive, last)) :=
    (restOfLine_scans inside).bind fun _ inside => .ok inside
  have name := h.next.takeWhile isNameChar
  unfold scanDirective
  dsimp only
  split
  · exact .error trivial
  · split
    · rename_i yaml
      have stands : InVersion text (c.next.takeWhile isNameChar).2.rest := by
        refine ⟨[], ?_, nofun⟩
        rw [← eq_of_beq yaml, List.append_nil, Cursor.takeWhile_append_rest]
        exact h.next
      exact (versionDirective_scans stands).bind fun found inside => ending found.1 inside
    · split
      · exact (tagDirective_scans name).bind fun found inside => ending found.1 inside
      · rw [pure_bind]
        exact ending .other name.skipToLineEnd

/-! ### Tokens -/

namespace Lexer
variable {l : Lexer}

/-- A step of the lexer stops at a flaw or at such an escape, and it goes on inside the text. -/
abbrev Steps (text : List Char) (x : Except Error Lexer) : Prop :=
  Yields (Error.Among (Unscanned text)) (fun l => l.cursor.Within text) x

theorem dropStale_steps (h : l.cursor.Within text) : Steps text l.dropStale := by
  unfold dropStale
  dsimp only
  split
  · exact .error trivial
  · exact .ok h

theorem dropCandidate_steps (h : l.cursor.Within text) : Steps text l.dropCandidate := by
  unfold dropCandidate
  dsimp only
  split
  · exact .error trivial
  · exact .ok h

theorem addCandidate_steps (h : l.cursor.Within text) : Steps text l.addCandidate := by
  unfold addCandidate
  split
  · exact .ok h
  · exact (dropCandidate_steps h).bind fun _ inside => .ok inside

theorem cursor_unwind (column indent : Int) (outer : List Int) (l : Lexer) :
    (unwind column indent outer l).cursor = l.cursor := by
  induction outer generalizing indent l with
  | nil =>
    unfold unwind
    split
    · rfl
    · split <;> rfl
  | cons around rest ih =>
    unfold unwind
    split
    · rfl
    · split
      · rfl
      · exact ih around (l.push .blockEnd)

@[simp] theorem cursor_unwindTo (l : Lexer) (column : Int) :
    (l.unwindTo column).cursor = l.cursor := cursor_unwind column l.indent l.outerIndents l

theorem openFor_steps (opening : Token) (flaw : Flaw) (h : l.cursor.Within text) :
    Steps text (l.openFor opening flaw) := by
  unfold openFor
  dsimp only
  split
  · exact .ok h
  · split
    · exact .error trivial
    · split
      · rename_i opened found
        refine .ok ?_
        unfold openBlock? at found
        split at found
        · cases found
          exact h
        · cases found
      · exact .ok h

theorem skipToToken_within (fuel : Nat) (h : l.cursor.Within text) :
    (l.skipToToken fuel).cursor.Within text := by
  induction fuel generalizing l with
  | zero => exact h
  | succ fuel ih =>
    have comment : (if l.cursor.skipSpaces.peek == '#' then l.cursor.skipSpaces.skipToLineEnd
        else l.cursor.skipSpaces).Within text := by
      split
      · exact h.skipSpaces.skipToLineEnd
      · exact h.skipSpaces
    unfold skipToToken
    dsimp only
    generalize (if l.cursor.skipSpaces.peek == '#' then l.cursor.skipSpaces.skipToLineEnd
      else l.cursor.skipSpaces) = after at comment
    split
    · exact comment
    · rename_i found
      refine ih ?_
      exact comment.lineBreak? found

theorem skipByteOrderMark_within (h : l.cursor.Within text) :
    l.skipByteOrderMark.cursor.Within text := by
  unfold skipByteOrderMark
  split
  · exact h.next
  · exact h

theorem outermost_steps (h : l.cursor.Within text) :
    Steps text (l.unwindTo (-1)).dropCandidate :=
  dropCandidate_steps (by rw [cursor_unwindTo]; exact h)

theorem fetchStreamEnd_steps (h : l.cursor.Within text) : Steps text l.fetchStreamEnd :=
  (outermost_steps h).bind fun _ inside => .ok inside

theorem fetchDirective_steps (h : l.cursor.Within text) : Steps text l.fetchDirective :=
  (outermost_steps h).bind fun _ inside =>
    (scanDirective_scans inside).bind fun _ inside => .ok inside

theorem fetchDocumentMark_steps (token : Token) (h : l.cursor.Within text) :
    Steps text (l.fetchDocumentMark token) :=
  (outermost_steps h).bind fun _ inside => .ok (inside.forward 3)

theorem fetchFlowStart_steps (token : Token) (h : l.cursor.Within text) :
    Steps text (l.fetchFlowStart token) :=
  (addCandidate_steps h).bind fun _ inside => .ok (inside.forward 1)

theorem fetchFlowEnd_steps (token : Token) (h : l.cursor.Within text) :
    Steps text (l.fetchFlowEnd token) :=
  (dropCandidate_steps h).bind fun _ inside => .ok (inside.forward 1)

theorem fetchFlowEntry_steps (h : l.cursor.Within text) : Steps text l.fetchFlowEntry :=
  (dropCandidate_steps h).bind fun _ inside => .ok (inside.forward 1)

theorem fetchBlockEntry_steps (h : l.cursor.Within text) : Steps text l.fetchBlockEntry :=
  (openFor_steps _ _ h).bind fun _ inside =>
    (dropCandidate_steps inside).bind fun _ inside => .ok (inside.forward 1)

theorem fetchKey_steps (h : l.cursor.Within text) : Steps text l.fetchKey :=
  (openFor_steps _ _ h).bind fun _ inside =>
    (dropCandidate_steps inside).bind fun _ inside => .ok (inside.forward 1)

theorem fetchValue_steps (h : l.cursor.Within text) : Steps text l.fetchValue := by
  unfold fetchValue
  split
  · refine .ok ?_
    dsimp only
    split
    · rename_i opened found
      have kept : opened.cursor = l.cursor := by
        split at found
        · cases found
        · unfold openBlock? at found
          split at found <;> cases found
          rfl
      rw [← kept] at h
      exact h.forward 1
    · exact h.forward 1
  · exact (openFor_steps _ _ h).bind fun _ inside =>
      (dropCandidate_steps inside).bind fun _ inside => .ok (inside.forward 1)

theorem fetchAnchor_steps (token : String → Token) (h : l.cursor.Within text) :
    Steps text (l.fetchAnchor token) :=
  (addCandidate_steps h).bind fun _ inside =>
    (anchorName_scans inside).bind fun _ inside => .ok inside

theorem fetchTag_steps (h : l.cursor.Within text) : Steps text l.fetchTag :=
  (addCandidate_steps h).bind fun _ inside =>
    (scanTag_scans inside).bind fun _ inside => .ok inside

theorem fetchBlock_steps (folded : Bool) (h : l.cursor.Within text) :
    Steps text (l.fetchBlock folded) :=
  (dropCandidate_steps h).bind fun _ inside =>
    (blockScalar_scans folded _ inside).bind fun _ inside => .ok inside

theorem fetchQuoted_steps (double : Bool) (h : l.cursor.Within text) :
    Steps text (l.fetchQuoted double) :=
  (addCandidate_steps h).bind fun _ inside =>
    (quotedScalar_scans double inside).bind fun _ inside => .ok inside

theorem fetchPlain_steps (h : l.cursor.Within text) : Steps text l.fetchPlain :=
  (addCandidate_steps h).bind fun _ inside => .ok (inside.plainScalar _ _)

theorem fetchHere_steps (h : l.cursor.Within text) : Steps text l.fetchHere := by
  unfold fetchHere
  exact .ite (fetchStreamEnd_steps h) <| .ite (fetchDirective_steps h) <|
    .ite (fetchDocumentMark_steps _ h) <| .ite (fetchDocumentMark_steps _ h) <|
    .ite (fetchFlowStart_steps _ h) <| .ite (fetchFlowStart_steps _ h) <|
    .ite (fetchFlowEnd_steps _ h) <| .ite (fetchFlowEnd_steps _ h) <|
    .ite (fetchFlowEntry_steps h) <| .ite (fetchBlockEntry_steps h) <|
    .ite (fetchKey_steps h) <| .ite (fetchValue_steps h) <|
    .ite (fetchAnchor_steps _ h) <| .ite (fetchAnchor_steps _ h) <| .ite (fetchTag_steps h) <|
    .ite (fetchBlock_steps _ h) <| .ite (fetchBlock_steps _ h) <|
    .ite (fetchQuoted_steps _ h) <| .ite (fetchQuoted_steps _ h) <|
    .ite (fetchPlain_steps h) <| .error trivial

theorem fetch_steps (h : l.cursor.Within text) : Steps text l.fetch := by
  unfold fetch
  refine (dropStale_steps (skipToToken_within _ (skipByteOrderMark_within h))).bind
    fun l inside => ?_
  refine (fetchHere_steps (by rw [cursor_unwindTo]; exact inside)).bind fun l inside => ?_
  split
  · exact .ok inside
  · exact dropStale_steps inside

/-- If the tokens of a text end in a fault, it is that of an escape. -/
theorem run_among (fuel : Nat) (h : l.cursor.Within text) {e : Error}
    (ended : (l.run fuel).2 = some e) : e.Among (Unscanned text) := by
  induction fuel generalizing l with
  | zero => cases ended
  | succ fuel ih =>
    have step := fetch_steps h
    unfold run at ended
    split at ended
    · cases ended
    · split at ended
      · rename_i next found
        exact ih (step.gives next found) ended
      · rename_i failure found
        cases ended
        exact step.fails e found

end Lexer

theorem tokens_among {text : List Char} {e : Error} (ended : (tokens text).2 = some e) :
    e.Among (Unscanned text) :=
  Lexer.run_among _ (Cursor.Within.start text) ended

end SessionPlan.Yaml
