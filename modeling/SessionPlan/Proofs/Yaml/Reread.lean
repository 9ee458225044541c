import SessionPlan.Proofs.Yaml.Cursor
import SessionPlan.Proofs.Yaml.Spelled

/-! Texts that are read back from what was written of them. A plain text and one in double quotes are
what they were. Single quotes keep all but one character: U+0085 is a break among others to the
reader, so that alone it comes back as a space, and with other breaks as a line feed or not at all. -/
namespace SessionPlan.Yaml
open SessionPlan.Text

/-! ### The line after a scalar -/

/-- What a line in a block begins with: a dash, or the name of a field; or the text ends there. -/
inductive Begins : List Char → Prop
  | ended : Begins []
  | dash (rest : List Char) : Begins ('-' :: ' ' :: rest)
  | name {c : Char} (known : c ∈ nameChars) (rest : List Char) : Begins (c :: rest)

/-- No character of these is read over before a token. -/
theorem Begins.head {t : List Char} (begins : Begins t) :
    ∀ c ∈ t.head?, endsWord c = false ∧ c ≠ '#' ∧ c ≠ '\ufeff' := by
  have table : ∀ c ∈ nameChars, endsWord c = false ∧ c ≠ '#' ∧ c ≠ '\ufeff' :=
    List.all_iff_forall_prop.mp (by decide)
  cases begins with
  | ended => simp
  | dash rest =>
    rintro _ ⟨⟩
    decide
  | name known rest =>
    rintro _ ⟨⟩
    exact table _ known

theorem isBreak_of_solid {c : Char} (solid : endsWord c = false) :
    c ≠ ' ' ∧ c ≠ '\t' ∧ isBreak c = false := by
  simp only [endsWord, endsLineOrSpace, endsLine, Bool.or_eq_false_iff, beq_eq_false_iff_ne] at solid
  exact ⟨solid.2.1, solid.1, solid.2.2.2⟩

theorem atMarker_of_head {c : Cursor} {mark : Char} (other : c.peek ≠ mark) :
    c.atMarker mark = false := by
  simp [Cursor.atMarker, other]

theorem peek_of_spaces {c : Cursor} {n : Nat} {t : List Char} (positive : 0 < n)
    (h : c.rest = List.replicate n ' ' ++ t) : c.peek = ' ' := by
  obtain ⟨m, rfl⟩ := Nat.exists_eq_add_one_of_ne_zero (Nat.ne_of_gt positive)
  exact Cursor.peek_of_cons h

/-- No separator stands where a line is indented, nor where a block goes on. -/
theorem atSeparator_of_indented {c : Cursor} {n : Nat} {t : List Char}
    (h : c.rest = List.replicate n ' ' ++ t) (begins : 0 < n ∨ Begins t) :
    c.atSeparator = false := by
  rw [Cursor.atSeparator, Bool.or_eq_false_iff]
  rcases Nat.eq_zero_or_pos n with rfl | positive
  · have begins := begins.resolve_left (Nat.lt_irrefl 0)
    rw [List.replicate_zero, List.nil_append] at h
    cases begins with
    | ended => exact ⟨atMarker_of_head (by rw [Cursor.peek, h]; decide),
        atMarker_of_head (by rw [Cursor.peek, h]; decide)⟩
    | dash rest =>
      refine ⟨?_, atMarker_of_head (by rw [Cursor.peek_of_cons h]; decide)⟩
      simp [Cursor.atMarker, Cursor.peekAt, h]
    | name known rest =>
      have table : ∀ c ∈ nameChars, c ≠ '-' ∧ c ≠ '.' :=
        List.all_iff_forall_prop.mp (by decide)
      have head := Cursor.peek_of_cons h
      exact ⟨atMarker_of_head (head ▸ (table _ known).1), atMarker_of_head (head ▸ (table _ known).2)⟩
  · have space := peek_of_spaces positive h
    exact ⟨atMarker_of_head (by rw [space]; decide), atMarker_of_head (by rw [space]; decide)⟩

/-! ### Plain texts -/

theorem plainLength_word {w u : List Char} (solid : ∀ c ∈ w, endsWord c = false)
    (uncoloned : w.getLast? ≠ some ':') (ended : endsWord (u.headD '\x00') = true) :
    plainLength false (w ++ u) = w.length := by
  induction w with
  | nil =>
    cases u with
    | nil => rfl
    | cons d u => rw [List.nil_append, plainLength, if_pos (by simp_all)]; rfl
  | cons c w ih =>
    obtain ⟨first, others⟩ := List.forall_mem_cons.mp solid
    have inside : ¬(c = ':' ∧ endsWord ((w ++ u).headD '\x00') = true) := by
      rintro ⟨rfl, ends⟩
      cases w with
      | nil => exact uncoloned rfl
      | cons d w => exact Bool.false_ne_true ((others d List.mem_cons_self).symm.trans ends)
    have later := ih others fun coloned => by
      cases w with
      | nil => cases coloned
      | cons d w => exact uncoloned (by simpa using coloned)
    rw [List.cons_append, plainLength, if_neg (by simpa [first] using inside), later,
      List.length_cons, Nat.add_comm]

/-- Spaces inside a line. -/
theorem plainSpaces_gap {c : Cursor} {spaces t : List Char} (h : c.rest = spaces ++ t)
    (blank : ∀ ch ∈ spaces, ch = ' ') (solid : ∀ ch ∈ t.head?, endsWord ch = false) :
    plainSpaces c = (spaces, false, c.forward spaces.length) := by
  have run : c.takeWhile (· == ' ') = (spaces, c.forward spaces.length) :=
    Cursor.takeWhile_append h (fun ch member => by simp [blank ch member]) fun ch head => by
      simp [(isBreak_of_solid (solid ch head)).1]
  have unbroken : (c.forward spaces.length).lineBreak? = none :=
    Cursor.lineBreak?_of_solid fun ch head => (isBreak_of_solid (solid ch (by
      rwa [Cursor.rest_forward_length h] at head))).2.2
  rw [plainSpaces, run]
  dsimp only
  rw [unbroken]

theorem forward_newLine {c : Cursor} {n : Nat} {t : List Char} (h : c.rest = newLine n ++ t) :
    c.forward (n + 1) = ⟨t, c.index + 1 + n, c.line + 1, n⟩ := by
  have next := Cursor.next_of_newLine (s := List.replicate n ' ' ++ t) h
  rw [Cursor.forward, next, Cursor.forward_spaces rfl, Nat.zero_add]

/-- A line that goes on after a break, or another one that begins. -/
theorem plainSpaces_newLine {c : Cursor} {n : Nat} {t : List Char} (h : c.rest = newLine n ++ t)
    (begins : 0 < n ∨ Begins t) (solid : ∀ ch ∈ t.head?, endsWord ch = false) :
    plainSpaces c = ([' '], true, c.forward (n + 1)) := by
  have next := Cursor.next_of_newLine (s := List.replicate n ' ' ++ t) h
  have rest : c.next.rest = List.replicate n ' ' ++ t := by rw [next]
  have run : c.takeWhile (· == ' ') = ([], c) :=
    Cursor.takeWhile_append (s := []) h (by simp) (by simp)
  have broken : c.lineBreak? = some ('\n', c.next) :=
    Cursor.lineBreak?_of_break (s := List.replicate n ' ' ++ t) h (by decide) (by decide)
  have spaces : c.next.skipSpaces = c.forward (n + 1) := by
    have run' : c.next.takeWhile (· == ' ') = (List.replicate n ' ', c.next.forward n) := by
      have found := Cursor.takeWhile_append (p := (· == ' ')) rest
        (fun ch member => by simp [(List.mem_replicate.mp member).2])
        fun ch head => by simp [(isBreak_of_solid (solid ch head)).1]
      rwa [List.length_replicate] at found
    rw [Cursor.skipSpaces, Cursor.skipWhile, run', Cursor.forward]
  have after : (c.forward (n + 1)).lineBreak? = none := by
    rw [forward_newLine h]
    exact Cursor.lineBreak?_of_solid fun ch head => (isBreak_of_solid (solid ch head)).2.2
  rw [plainSpaces, run]
  dsimp only
  rw [broken]
  dsimp only
  rw [atSeparator_of_indented rest begins, if_neg Bool.false_ne_true, plainBreaks, spaces]
  dsimp only
  rw [after]
  rfl

section Word
variable {w u : List Char} (word : IsWord w) {c : Cursor} (rest : c.rest = w ++ u)
  (uncommented : w.head? ≠ some '#') (ends : endsWord (u.headD '\x00') = true)
include word rest uncommented ends

/-- One word and the white space after it. -/
theorem plainFrom_word (indent : Int) (pending : List Char) (ended : Bool) (fuel : Nat) :
    plainFrom false indent pending ended (fuel + 1) c =
      let (spaces, crossed, after) := plainSpaces (c.forward w.length)
      if spaces.isEmpty || after.peek == '#' || (after.column : Int) < indent then
        (pending ++ w, crossed, after)
      else
        let (more, ended, last) := plainFrom false indent spaces crossed fuel after
        (pending ++ w ++ more, ended, last) := by
  have marked : (c.peek == '#') = false := by
    obtain ⟨d, v, rfl⟩ := List.exists_cons_of_ne_nil word.ne_nil
    rw [Cursor.peek_of_cons rest]
    simpa using uncommented
  have length : plainLength false c.rest = w.length := by
    rw [rest, plainLength_word word.solid word.uncoloned ends]
  have nonempty : w.length ≠ 0 := fun empty => word.ne_nil (List.length_eq_zero_iff.mp empty)
  rw [plainFrom, marked, if_neg Bool.false_ne_true, length]
  dsimp only
  rw [if_neg nonempty, rest, List.take_left]
  rfl

variable {indent : Int} {spaces : List Char} {crossed : Bool} {after : Cursor}
  (read : plainSpaces (c.forward w.length) = (spaces, crossed, after))
include read

/-- The last word: what follows is outside of the block. -/
theorem plainFrom_lastWord (outside : (after.column : Int) < indent) {pending : List Char}
    {ended : Bool} {fuel : Nat} :
    plainFrom false indent pending ended (fuel + 1) c = (pending ++ w, crossed, after) := by
  rw [plainFrom_word word rest uncommented ends, read]
  exact if_pos (by simp [outside])

/-- A word before another one. -/
theorem plainFrom_wordBefore (nonempty : spaces ≠ []) (unmarked : after.peek ≠ '#')
    (reached : indent ≤ (after.column : Int)) {pending : List Char} {ended : Bool} {fuel : Nat} :
    plainFrom false indent pending ended (fuel + 1) c =
      let (more, ended, last) := plainFrom false indent spaces crossed fuel after
      (pending ++ w ++ more, ended, last) := by
  rw [plainFrom_word word rest uncommented ends, read]
  exact if_neg (by simp [nonempty, unmarked, reached])

end Word

/-- What a plain text goes on with after a space. -/
theorem Laid.head_word {column : Nat} {w s : List Char} {rs : List (RunKind × List Char)}
    (laid : Laid (fun _ run => run) column ((.word, w) :: rs) s) (word : IsWord w) :
    ∃ d v, s = d :: v ∧ w.head? = some d ∧ endsWord d = false := by
  cases laid with
  | run kind run later =>
    obtain ⟨d, v, rfl⟩ := List.exists_cons_of_ne_nil word.ne_nil
    exact ⟨d, _, rfl, rfl, word.solid d List.mem_cons_self⟩

theorem AreWords.head {w : List Char} {rs : List (RunKind × List Char)}
    (words : AreWords ((.word, w) :: rs)) : IsWord w := by
  cases words with
  | last word => exact word
  | more word => exact word

/-- How the spaces between two words are written: as they are, or a single one as a break and the
indentation. -/
inductive Separates (column : Nat) (spaces : List Char) : List Char → Prop
  | kept : Separates column spaces spaces
  | folded (single : spaces = [' ']) : Separates column spaces (newLine column)

theorem Laid.word_spaces {column : Nat} {w spaces s : List Char} {rs : List (RunKind × List Char)}
    (laid : Laid (fun _ run => run) column ((.word, w) :: (.spaces, spaces) :: rs) s) :
    ∃ between later, s = w ++ (between ++ later) ∧ Separates column spaces between ∧
      Laid (fun _ run => run) column rs later := by
  cases laid with
  | run kind run laid =>
    cases laid with
    | run kind run later => exact ⟨_, _, rfl, .kept, later⟩
    | folded later => exact ⟨_, _, rfl, .folded rfl, later⟩

section Separates
variable {column : Nat} {spaces between : List Char} (separates : Separates column spaces between)
  (gap : spaces ≠ [] ∧ ∀ c ∈ spaces, c = ' ')
include separates gap

theorem Separates.ends : ∃ d u, between = d :: u ∧ endsWord d = true := by
  cases separates with
  | kept =>
    obtain ⟨d, u, rfl⟩ := List.exists_cons_of_ne_nil gap.1
    refine ⟨d, u, rfl, ?_⟩
    rw [gap.2 d List.mem_cons_self]
    decide
  | folded single => exact ⟨'\n', _, rfl, by decide⟩

/-- Either way the spaces are read, and up to where the next word stands. -/
theorem Separates.read (indented : 0 < column) {c : Cursor} {t : List Char}
    (rest : c.rest = between ++ t) (solid : ∀ ch ∈ t.head?, endsWord ch = false) :
    ∃ crossed, plainSpaces c = (spaces, crossed, c.forward between.length) := by
  cases separates with
  | kept => exact ⟨false, plainSpaces_gap rest gap.2 solid⟩
  | folded single =>
    refine ⟨true, ?_⟩
    rw [single, plainSpaces_newLine rest (.inl indented) solid]
    simp [newLine]

/-- The next word stands further to the right, or where a line that goes on begins. -/
theorem Separates.column_le {c : Cursor} {t : List Char} (rest : c.rest = between ++ t) :
    min c.column column ≤ (c.forward between.length).column := by
  cases separates with
  | kept =>
    refine (Nat.min_le_left _ _).trans (Cursor.forward_of_unbroken rest fun ch member => ?_).2
    rw [gap.2 ch member]
    decide
  | folded single =>
    refine (Nat.min_le_right _ _).trans (Nat.le_of_eq ?_)
    have reached := congrArg Cursor.column (forward_newLine rest)
    simpa [newLine] using reached.symm

end Separates

/-- A plain text of these words is read up to the next line of a block. -/
theorem plainFrom_words {column k : Nat} {indent : Int} {rs : List (RunKind × List Char)}
    (words : AreWords rs) {s t : List Char} (laid : Laid (fun _ run => run) column rs s)
    (begins : Begins t) (outside : (k : Int) < indent) (indented : 0 < column)
    (inside : indent ≤ column) {c : Cursor} (rest : c.rest = s ++ (newLine k ++ t))
    (within : indent ≤ c.column)
    (uncommented : ∀ w others, rs = (.word, w) :: others → w.head? ≠ some '#')
    (pending : List Char) (ended : Bool) {fuel : Nat} (enough : c.rest.length < fuel) :
    plainFrom false indent pending ended fuel c =
      (pending ++ rs.flatMap (·.2), true, c.forward (s.length + (k + 1))) := by
  have unbroken {w : List Char} (word : IsWord w) : ∀ ch ∈ w, isBreak ch = false :=
    fun ch member => (isBreak_of_solid (word.solid ch member)).2.2
  obtain ⟨fuel, rfl⟩ := Nat.exists_eq_add_one_of_ne_zero (Nat.ne_zero_of_lt enough)
  induction words generalizing s c pending ended fuel with
  | @last w word =>
    cases laid with
    | run kind run later =>
      cases later with
      | nil =>
        rw [List.append_nil] at rest ⊢
        have after := Cursor.rest_forward_length rest
        have column := congrArg Cursor.column (forward_newLine after)
        have read := plainSpaces_newLine after (.inr begins) fun ch head => (begins.head ch head).1
        rw [plainFrom_lastWord word rest (uncommented w [] rfl) (by simp [newLine, endsWord,
          endsLineOrSpace, endsLine, isBreak]) read (by rw [column]; exact outside),
          Cursor.forward_add c w.length (k + 1)]
        simp
  | @more w spaces v others word gap sharp later ih =>
    obtain ⟨between, s', rfl, separates, laid⟩ := laid.word_spaces
    obtain ⟨d, u, whole, head, solid⟩ := laid.head_word later.head
    obtain ⟨b, bs, nonempty, ends⟩ := separates.ends gap
    simp only [List.append_assoc] at rest
    have unread := Cursor.rest_forward_length rest
    have after := Cursor.rest_forward_length unread
    obtain ⟨crossed, read⟩ := separates.read gap indented unread (by
      rw [whole]
      rintro ch ⟨⟩
      exact solid)
    have reached : indent ≤ ((c.forward w.length).forward between.length).column := by
      have word_le := (Cursor.forward_of_unbroken rest (unbroken word)).2
      have gap_le := separates.column_le gap unread
      omega
    have unmarked : ((c.forward w.length).forward between.length).peek ≠ '#' := by
      rw [whole] at after
      rw [Cursor.peek_of_cons after]
      rw [head] at sharp
      simpa using sharp
    have shorter : ((c.forward w.length).forward between.length).rest.length < fuel := by
      rw [rest, nonempty] at enough
      rw [after]
      simp only [List.length_append, List.length_cons] at enough ⊢
      omega
    obtain ⟨fuel, rfl⟩ := Nat.exists_eq_add_one_of_ne_zero (Nat.ne_zero_of_lt shorter)
    have more := ih laid after reached (fun w' others' same => by cases same; exact sharp) spaces
      crossed fuel shorter
    rw [plainFrom_wordBefore word rest (uncommented w _ rfl) (by rw [nonempty]; exact ends) read gap.1
      unmarked reached, more, ← Cursor.forward_add, ← Cursor.forward_add]
    simp [Nat.add_assoc]

/-- A plain text is read as it is, up to the next line of the block. -/
theorem plainScalar_spelled {column k : Nat} (indent : Int) {t s u : List Char}
    (fits : Fits .plain t) (spells : SpellsText column .plain t s) (begins : Begins u)
    (outside : (k : Int) < indent) (indented : 0 < column) (inside : indent ≤ column) {c : Cursor}
    (rest : c.rest = s ++ (newLine k ++ u)) (within : indent ≤ c.column) :
    plainScalar false indent c = (String.ofList t, true, c.forward (s.length + (k + 1))) := by
  obtain ⟨words, -, d, t', rfl, head⟩ := areWords_plain fits.1 fits.2
  have uncommented : ∀ w others, runs (d :: t') = (.word, w) :: others → w.head? ≠ some '#' := by
    intro w others cut sharp
    obtain ⟨run, others', cut', -⟩ := runs_cons d t'
    rw [cut'] at cut
    obtain ⟨-, rfl⟩ := Prod.mk.inj (List.cons.inj cut).1
    cases sharp
    exact absurd head.unmarked (by decide)
  rw [plainScalar, plainFrom_words words spells begins outside indented inside rest within
    uncommented [] false (Nat.lt_succ_self _), flatten_runs]
  rfl

end SessionPlan.Yaml
