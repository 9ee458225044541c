import SessionPlan.Proofs.Outcome
import SessionPlan.Proofs.Yaml.Reread

/-! Texts in quotes that are read back. The reader takes them piece by piece, and a piece is what the
writer made of a character or of a run. -/
namespace SessionPlan.Yaml
open SessionPlan.Text

/-- What single quotes make of a run of breaks. -/
def rejoined (run : List Char) : List Char :=
  match ((if run.head? = some '\n' then ['\n'] else []) ++ run).map Cursor.seenBreak with
  | [] => []
  | first :: breaks => foldBreak first breaks

/-- What a text in single quotes is read back as. -/
def singleReading (rs : List (RunKind × List Char)) : List Char :=
  rs.flatMap fun r => if r.1 = .breaks then rejoined r.2 else r.2

/-! ### Piece by piece -/

/-- One piece of a text in quotes is read as `piece`, and leads on to `after`. -/
def Takes (double : Bool) (c : Cursor) (piece : List Char) (after : Cursor) : Prop :=
  after.rest.length < c.rest.length ∧ ∀ fuel, quotedFrom double (fuel + 1) c =
    quotedFrom double fuel after >>= fun found => pure (piece ++ found.1, found.2)

/-- The text from here on to the closing quote. -/
def Quotes (double : Bool) (c : Cursor) (t : List Char) (last : Cursor) : Prop :=
  ∀ fuel, c.rest.length < fuel → quotedFrom double fuel c = .ok (t, last)

theorem Takes.quotes {double : Bool} {c after last : Cursor} {piece t : List Char}
    (takes : Takes double c piece after) (quotes : Quotes double after t last) :
    Quotes double c (piece ++ t) last := by
  intro fuel enough
  obtain ⟨fuel, rfl⟩ := Nat.exists_eq_add_one_of_ne_zero (Nat.ne_zero_of_lt enough)
  have shorter := takes.1
  rw [takes.2, quotes fuel (by omega)]
  rfl

/-- The quote that opens a text. -/
def quoteOf (double : Bool) : Char := if double then '"' else '\''

theorem Quotes.close {double : Bool} {c : Cursor} {u : List Char}
    (rest : c.rest = quoteOf double :: u) (apart : double = false → u.head? ≠ some '\'') :
    Quotes double c [] c := by
  intro fuel enough
  obtain ⟨fuel, rfl⟩ := Nat.exists_eq_add_one_of_ne_zero (Nat.ne_zero_of_lt enough)
  have head := Cursor.peek_of_cons rest
  have second := Cursor.peekAt_one_of_cons rest
  rw [quotedFrom]
  cases double with
  | true => simp [head, quoteOf]; rfl
  | false =>
    have single : u.head?.getD '\x00' ≠ '\'' := by
      have other := apart rfl
      cases u with
      | nil => decide
      | cons d u => simpa using other
    simp [head, second, single, quoteOf]
    rfl

/-- A character that stands for itself. -/
theorem takes_char (double : Bool) {c : Cursor} {ch : Char} {u : List Char}
    (rest : c.rest = ch :: u) (solid : endsWord ch = false) (unquoted : ch ≠ quoteOf double)
    (unescaped : double = true → ch ≠ '\\') : Takes double c [ch] c.next := by
  have head := Cursor.peek_of_cons rest
  refine ⟨by rw [Cursor.rest_next, rest]; simp, fun fuel => ?_⟩
  rw [quotedFrom]
  cases double with
  | true =>
    have backslash := unescaped rfl
    simp [quoteOf] at unquoted
    simp [head, unquoted, backslash, solid]
  | false =>
    simp [quoteOf] at unquoted
    simp [head, unquoted, solid]

theorem takes_apostrophe {c : Cursor} {u : List Char} (rest : c.rest = '\'' :: '\'' :: u) :
    Takes false c ['\''] (c.forward 2) := by
  have head := Cursor.peek_of_cons rest
  have second := Cursor.peekAt_one_of_cons rest
  refine ⟨?_, fun fuel => ?_⟩
  · rw [Cursor.rest_forward, rest]
    exact Nat.lt_succ_of_lt (Nat.lt_succ_self _)
  · rw [quotedFrom]
    simp [head, second]

/-- White space, which may hold breaks. -/
theorem takes_spaces (double : Bool) {c : Cursor} {ch : Char} {u piece : List Char} {n : Nat}
    (rest : c.rest = ch :: u) (blank : endsWord ch = true)
    (read : quotedSpaces c = .ok (piece, c.forward n)) (positive : 0 < n) :
    Takes double c piece (c.forward n) := by
  have head := Cursor.peek_of_cons rest
  have quote : ch ≠ '"' ∧ ch ≠ '\'' ∧ ch ≠ '\\' := by
    refine ⟨?_, ?_, ?_⟩ <;> rintro rfl <;> revert blank <;> decide
  refine ⟨?_, fun fuel => ?_⟩
  · rw [Cursor.rest_forward, List.length_drop, rest, List.length_cons]
    omega
  · rw [quotedFrom]
    cases double <;> simp [head, quote, blank, read, ok_bind]

theorem takes_escape {c : Cursor} {u piece : List Char} {n : Nat} (rest : c.rest = '\\' :: u)
    (read : escapeSequence c.next = .ok (piece, c.next.forward n)) :
    Takes true c piece (c.forward (n + 1)) := by
  have head := Cursor.peek_of_cons rest
  refine ⟨?_, fun fuel => ?_⟩
  · rw [Cursor.rest_forward, List.length_drop, rest, List.length_cons]
    omega
  · rw [quotedFrom]
    simp [head, read, ok_bind, Cursor.forward]

/-- A text between its quotes. -/
theorem quotedScalar_of_quotes {double : Bool} {c : Cursor} {t inner u : List Char}
    (rest : c.rest = quoteOf double :: (inner ++ [quoteOf double]) ++ u)
    (quotes : c.next.rest = inner ++ quoteOf double :: u →
      Quotes double c.next t (c.next.forward inner.length)) :
    quotedScalar double c =
      .ok (String.ofList t, c.forward (quoteOf double :: (inner ++ [quoteOf double])).length) := by
  have inside : c.next.rest = inner ++ quoteOf double :: u := by
    rw [Cursor.rest_next, rest]
    simp
  have last : (c.next.forward inner.length).next =
      c.forward (quoteOf double :: (inner ++ [quoteOf double])).length := by
    rw [List.length_cons, List.length_append, Cursor.forward, Cursor.forward_add]
    rfl
  rw [quotedScalar, quotes inside (c.rest.length + 1) (by
    rw [Cursor.rest_next, List.length_tail]
    omega), ok_bind]
  dsimp only
  rw [last]
  rfl

/-! ### White space -/

theorem isBreak_of_textBreak {c : Char} (breaks : isTextBreak c = true) :
    isBreak c = true ∧ c ≠ '\r' ∧ (c == ' ' || c == '\t') = false ∧ c ≠ '-' ∧ c ≠ '.' := by
  simp only [isTextBreak, Bool.or_eq_true, beq_iff_eq] at breaks
  rcases breaks with ((rfl | rfl) | rfl) | rfl <;> decide

/-- The blanks before a line goes on. -/
theorem skipWhile_blanks {c : Cursor} {n : Nat} {u : List Char}
    (rest : c.rest = List.replicate n ' ' ++ u) (solid : ∀ ch ∈ u.head?, endsWord ch = false) :
    c.skipWhile (fun ch => ch == ' ' || ch == '\t') = c.forward n := by
  have run := Cursor.takeWhile_append (p := fun ch => ch == ' ' || ch == '\t') rest
    (fun ch member => by simp [(List.mem_replicate.mp member).2]) fun ch head => by
      have clear := isBreak_of_solid (solid ch head)
      simp [clear]
  rw [Cursor.skipWhile, run, List.length_replicate]

theorem lineBreak?_forward {c : Cursor} {s u : List Char} (rest : c.rest = s ++ u)
    (solid : ∀ ch ∈ u.head?, endsWord ch = false) : (c.forward s.length).lineBreak? = none :=
  Cursor.lineBreak?_of_solid fun ch head => (isBreak_of_solid (solid ch (by
    rwa [Cursor.rest_forward_length rest] at head))).2.2

/-- Further breaks and the indentation of the line that goes on. -/
theorem quotedBreaks_line {bs u : List Char} {n : Nat} (breaks : ∀ ch ∈ bs, isTextBreak ch = true)
    (indented : 0 < n) (solid : ∀ ch ∈ u.head?, endsWord ch = false) {c : Cursor}
    (rest : c.rest = bs ++ (List.replicate n ' ' ++ u)) (fuel : Nat) (enough : bs.length < fuel) :
    quotedBreaks fuel c = .ok (bs.map Cursor.seenBreak, c.forward (bs.length + n)) := by
  induction bs generalizing c fuel with
  | nil =>
    obtain ⟨fuel, rfl⟩ := Nat.exists_eq_add_one_of_ne_zero (Nat.ne_zero_of_lt enough)
    rw [List.nil_append] at rest
    have ended := lineBreak?_forward rest solid
    rw [List.length_replicate] at ended
    rw [quotedBreaks, atSeparator_of_indented rest (.inl indented), if_neg Bool.false_ne_true]
    dsimp only
    rw [skipWhile_blanks rest solid, ended, List.length_nil, Nat.zero_add]
    rfl
  | cons b bs ih =>
    obtain ⟨fuel, rfl⟩ := Nat.exists_eq_add_one_of_ne_zero (Nat.ne_zero_of_lt enough)
    obtain ⟨first, others⟩ := List.forall_mem_cons.mp breaks
    obtain ⟨isBreak, return_, solid', dash, point⟩ := isBreak_of_textBreak first
    have head := Cursor.peek_of_cons rest
    have unmarked : c.atSeparator = false := by
      rw [Cursor.atSeparator, atMarker_of_head (head ▸ dash), atMarker_of_head (head ▸ point)]
      rfl
    have stays : c.skipWhile (fun ch => ch == ' ' || ch == '\t') = c := by
      have run := Cursor.takeWhile_append (c := c) (p := fun ch => ch == ' ' || ch == '\t') (s := [])
        rest (by simp) (by rintro ch ⟨⟩; exact solid')
      rw [Cursor.skipWhile, run]
      rfl
    have more := ih others (c := c.next) (by rw [Cursor.rest_next, rest]; rfl)
      fuel (Nat.lt_of_succ_lt_succ enough)
    rw [quotedBreaks, unmarked, if_neg Bool.false_ne_true]
    dsimp only
    rw [stays, Cursor.lineBreak?_of_break rest isBreak return_]
    dsimp only
    rw [more, ok_bind, List.length_cons, Nat.succ_add, Cursor.forward]
    rfl

/-- Breaks in quotes are folded into what they stand for. -/
theorem quotedSpaces_breaks {b : Char} {bs u : List Char} {n : Nat}
    (breaks : ∀ ch ∈ b :: bs, isTextBreak ch = true) (indented : 0 < n)
    (solid : ∀ ch ∈ u.head?, endsWord ch = false) {c : Cursor}
    (rest : c.rest = (b :: bs) ++ (List.replicate n ' ' ++ u)) :
    quotedSpaces c = .ok (foldBreak (Cursor.seenBreak b) (bs.map Cursor.seenBreak),
      c.forward ((b :: bs).length + n)) := by
  obtain ⟨first, others⟩ := List.forall_mem_cons.mp breaks
  obtain ⟨isBreak, return_, solid', -⟩ := isBreak_of_textBreak first
  have run : c.takeWhile (fun ch => ch == ' ' || ch == '\t') = ([], c) :=
    Cursor.takeWhile_append (s := []) rest (by simp) (by rintro ch ⟨⟩; exact solid')
  have more := quotedBreaks_line others indented solid (c := c.next)
    (by rw [Cursor.rest_next, rest]; rfl) (c.next.rest.length + 1) (by
      rw [Cursor.rest_next, rest]
      simp only [List.cons_append, List.tail_cons, List.length_append]
      omega)
  have nonempty : c.rest.isEmpty = false := by rw [rest]; rfl
  rw [quotedSpaces, run]
  dsimp only
  rw [nonempty, if_neg Bool.false_ne_true, Cursor.lineBreak?_of_break rest isBreak return_]
  dsimp only
  rw [more, ok_bind, List.length_cons, Nat.succ_add, Cursor.forward]
  rfl

theorem quotedSpaces_gap {spaces u : List Char} {d : Char} (blank : ∀ ch ∈ spaces, ch = ' ')
    (solid : endsWord d = false) {c : Cursor} (rest : c.rest = spaces ++ d :: u) :
    quotedSpaces c = .ok (spaces, c.forward spaces.length) := by
  have head : ∀ ch ∈ (d :: u).head?, endsWord ch = false := by rintro ch ⟨⟩; exact solid
  have run := Cursor.takeWhile_append (p := fun ch => ch == ' ' || ch == '\t') rest
    (fun ch member => by simp [blank ch member]) fun ch first => by
      have clear := isBreak_of_solid (head ch first)
      simp [clear]
  have nonempty : (c.forward spaces.length).rest.isEmpty = false := by
    rw [Cursor.rest_forward_length rest]
    rfl
  rw [quotedSpaces, run]
  dsimp only
  rw [nonempty, if_neg Bool.false_ne_true, lineBreak?_forward rest head]
  rfl

/-! ### Single quotes -/

theorem quotes_word {w u : List Char} (solid : ∀ ch ∈ w, endsWord ch = false) {c last : Cursor}
    {t : List Char} (rest : c.rest = singleRun 0 .word w ++ u)
    (later : Quotes false (c.forward (singleRun 0 .word w).length) t last) :
    Quotes false c (w ++ t) last := by
  induction w generalizing c with
  | nil => exact later
  | cons ch w ih =>
    obtain ⟨first, others⟩ := List.forall_mem_cons.mp solid
    by_cases quote : ch = '\''
    · subst quote
      refine (takes_apostrophe (u := singleRun 0 .word w ++ u) rest).quotes (ih others ?_ ?_)
      · rw [Cursor.rest_forward, rest]
        rfl
      · rw [← Cursor.forward_add, Nat.add_comm]
        exact later
    · have whole : singleRun 0 .word (ch :: w) = ch :: singleRun 0 .word w := by
        simp [singleRun, quote]
      rw [whole] at rest later
      refine (takes_char false (u := singleRun 0 .word w ++ u) rest first quote
        (by simp)).quotes (ih others ?_ later)
      rw [Cursor.rest_next, rest]
      rfl

/-- Runs as single quotes can hold them. -/
def AreQuotable (rs : List (RunKind × List Char)) : Prop :=
  (∀ r ∈ rs, IsRun r ∧ ∀ ch ∈ r.2, needsEscape ch = false) ∧
    rs.IsChain fun a b => a.1 ≠ b.1 ∧ (a.1 = .word ∨ b.1 = .word)

theorem AreQuotable.tail {r : RunKind × List Char} {rs : List (RunKind × List Char)}
    (h : AreQuotable (r :: rs)) : AreQuotable rs :=
  ⟨(List.forall_mem_cons.mp h.1).2, h.2.tail⟩

/-- After spaces or breaks there is a word, or the text ends. -/
theorem AreQuotable.goesOn {r : RunKind × List Char} {rs : List (RunKind × List Char)}
    (h : AreQuotable (r :: rs)) (gap : r.1 ≠ .word) {column : Nat} {s : List Char}
    (laid : Laid (singleRun column) column rs s) (u : List Char) :
    ∃ d v, s ++ '\'' :: u = d :: v ∧ endsWord d = false := by
  obtain ⟨known, apart⟩ := h
  cases laid with
  | nil => exact ⟨_, _, rfl, by decide⟩
  | @run kind run others more later =>
    obtain ⟨⟨nonempty, kinds⟩, clear⟩ := known (kind, run) (by simp)
    obtain rfl : kind = .word := (List.isChain_cons_cons.mp apart).1.2.resolve_left gap
    obtain ⟨d, v, rfl⟩ := List.exists_cons_of_ne_nil nonempty
    have solid := endsWord_of_word (kinds d List.mem_cons_self) (clear d List.mem_cons_self)
    by_cases quote : d = '\''
    · subst quote
      exact ⟨_, _, rfl, by decide⟩
    · have whole : singleRun column .word (d :: v) = d :: singleRun column .word v := by
        simp [singleRun, quote]
      exact ⟨d, singleRun column .word v ++ more ++ '\'' :: u, by rw [whole]; rfl, solid⟩
  | folded later =>
    exact absurd ((List.isChain_cons_cons.mp apart).1.2.resolve_left gap) (by simp)

section Gaps
variable {u t : List Char} {d : Char} (solid : endsWord d = false) {c last : Cursor}
include solid

theorem quotes_spaces (double : Bool) {spaces : List Char} (blank : ∀ ch ∈ spaces, ch = ' ')
    (rest : c.rest = spaces ++ d :: u) (later : Quotes double (c.forward spaces.length) t last) :
    Quotes double c (spaces ++ t) last := by
  cases spaces with
  | nil => exact later
  | cons b spaces =>
    have first : endsWord b = true := by
      rw [blank b List.mem_cons_self]
      decide
    exact (takes_spaces double rest first (quotedSpaces_gap blank solid rest)
      (Nat.succ_pos _)).quotes later

/-- Breaks, and the indentation of the line that goes on. -/
theorem quotes_breaks {b : Char} {bs : List Char} {n : Nat}
    (breaks : ∀ ch ∈ b :: bs, isTextBreak ch = true) (indented : 0 < n)
    (rest : c.rest = (b :: bs) ++ (List.replicate n ' ' ++ d :: u))
    (later : Quotes false (c.forward ((b :: bs).length + n)) t last) :
    Quotes false c (foldBreak (Cursor.seenBreak b) (bs.map Cursor.seenBreak) ++ t) last := by
  have read := quotedSpaces_breaks breaks indented (u := d :: u) (by rintro ch ⟨⟩; exact solid) rest
  have first : endsWord b = true := by
    have known := (isBreak_of_textBreak (breaks b List.mem_cons_self)).1
    simp [endsWord, endsLineOrSpace, endsLine, known]
  exact (takes_spaces false rest first read (Nat.add_pos_right _ indented)).quotes later

end Gaps

/-- A run of breaks is written as breaks, and read back as what they fold into. -/
theorem singleRun_breaks (column : Nat) {run : List Char} (nonempty : run ≠ [])
    (breaks : ∀ ch ∈ run, isTextBreak ch = true) :
    ∃ b bs, singleRun column .breaks run = (b :: bs) ++ List.replicate column ' ' ∧
      (∀ ch ∈ b :: bs, isTextBreak ch = true) ∧
      rejoined run = foldBreak (Cursor.seenBreak b) (bs.map Cursor.seenBreak) := by
  obtain ⟨b, bs, written⟩ : ∃ b bs,
      (if run.head? = some '\n' then ['\n'] else []) ++ run = b :: bs :=
    List.exists_cons_of_ne_nil (by simp [nonempty])
  refine ⟨b, bs, by rw [singleRun, written], fun ch member => ?_, by rw [rejoined, written]; rfl⟩
  rw [← written] at member
  rcases List.mem_append.mp member with added | own
  · split at added
    · rw [List.mem_singleton.mp added]
      decide
    · cases added
  · exact breaks ch own

theorem quotes_single {column : Nat} (indented : 0 < column) {rs : List (RunKind × List Char)}
    {s u : List Char} (laid : Laid (singleRun column) column rs s) (quotable : AreQuotable rs)
    (apart : u.head? ≠ some '\'') {c : Cursor} (rest : c.rest = s ++ '\'' :: u) :
    Quotes false c (singleReading rs) (c.forward s.length) := by
  induction laid generalizing c with
  | nil => exact Quotes.close rest fun _ => apart
  | @run kind run rs s later ih =>
    obtain ⟨⟨nonempty, kinds⟩, clear⟩ := quotable.1 _ List.mem_cons_self
    rw [List.append_assoc] at rest
    have more := ih quotable.tail (Cursor.rest_forward_length rest)
    rw [← Cursor.forward_add, ← List.length_append] at more
    have whole (piece : List Char) (same : (if kind = .breaks then rejoined run else run) = piece) :
        singleReading ((kind, run) :: rs) = piece ++ singleReading rs := by
      rw [← same]
      rfl
    rw [List.length_append, Cursor.forward_add] at more ⊢
    cases kind with
    | word =>
      rw [whole run rfl]
      exact quotes_word (fun ch member => endsWord_of_word (kinds ch member) (clear ch member)) rest more
    | spaces =>
      rw [whole run rfl]
      obtain ⟨d, v, next, solid⟩ := quotable.goesOn (by simp) later u
      rw [next] at rest
      exact quotes_spaces solid false (fun ch member => runKind_spaces.mp (kinds ch member)) rest more
    | breaks =>
      obtain ⟨d, v, next, solid⟩ := quotable.goesOn (by simp) later u
      obtain ⟨b, bs, piece, breaks, folded⟩ := singleRun_breaks column nonempty fun ch member =>
        runKind_breaks.mp (kinds ch member)
      rw [next, piece, List.append_assoc] at rest
      rw [piece, List.length_append, List.length_replicate] at more ⊢
      rw [whole _ (if_pos rfl), folded]
      exact quotes_breaks solid breaks indented rest more
  | @folded rs s later ih =>
    obtain ⟨d, v, next, solid⟩ := quotable.goesOn (by simp) later u
    rw [List.append_assoc] at rest
    have more := ih quotable.tail (Cursor.rest_forward_length rest)
    have length : (newLine column).length = ['\n'].length + column := by simp [newLine, Nat.add_comm]
    rw [next] at rest
    rw [List.length_append, Cursor.forward_add, length]
    rw [length] at more
    have breaks : ∀ ch ∈ ['\n'], isTextBreak ch = true := by simp [isTextBreak]
    exact quotes_breaks solid breaks indented rest more

/-- A text in single quotes is read as it is but for its breaks. -/
theorem quotedScalar_single {column : Nat} (indented : 0 < column) {t s u : List Char}
    (fits : Fits .single t) (spells : SpellsText column .single t s) (apart : u.head? ≠ some '\'')
    {c : Cursor} (rest : c.rest = s ++ u) :
    quotedScalar false c = .ok (String.ofList (singleReading (runs t)), c.forward s.length) := by
  obtain ⟨clear, chain⟩ := isChain_runs_single fits
  obtain ⟨inner, laid, rfl⟩ := spells
  have quotable : AreQuotable (runs t) := by
    refine ⟨fun r member => ⟨isRun_of_mem_runs r member, fun ch inside => clear ch ?_⟩, chain⟩
    rw [← flatten_runs t]
    exact List.mem_flatMap.mpr ⟨r, member, inside⟩
  exact quotedScalar_of_quotes rest fun inside =>
    quotes_single indented laid quotable apart inside

/-! ### Double quotes -/

theorem hexNumber_concat {a w u : List Char} {d : Char} {value count m : Nat}
    (length : a.length = count) (read : hexNumber value count (a ++ w) = .ok m) :
    hexNumber value (count + 1) (a ++ d :: u) = hexNumber m 1 (d :: u) := by
  induction a generalizing value count with
  | nil =>
    cases length
    cases read
    rfl
  | cons c a ih =>
    cases length
    rw [List.cons_append, List.length_cons, hexNumber] at read ⊢
    cases digit : hexValue? c with
    | none =>
      rw [digit] at read
      cases read
    | some n =>
      rw [digit] at read
      exact ih rfl read

theorem length_hex (count n : Nat) : (hex count n).length = count := by
  induction count generalizing n with
  | zero => rfl
  | succ count ih => rw [hex, List.length_append, ih, List.length_singleton]

/-- A number is read from its digits in capitals. -/
theorem hexNumber_hex (value : Nat) {count n : Nat} (fits : n < Nat.pow 16 count) (u : List Char) :
    hexNumber value count ((hex count n).map Char.toUpper ++ u) =
      .ok (Nat.pow 16 count * value + n) := by
  induction count generalizing n u with
  | zero =>
    obtain rfl : n = 0 := Nat.lt_one_iff.mp fits
    exact congrArg Except.ok (Nat.one_mul value).symm
  | succ count ih =>
    have table : ∀ d < 16, hexValue? (hexDigit d).toUpper = some d := by decide
    have power : Nat.pow 16 (count + 1) = 16 * Nat.pow 16 count := Nat.mul_comm _ _
    have length : ((hex count (n / 16)).map Char.toUpper).length = count := by
      rw [List.length_map, length_hex]
    have front := ih (n := n / 16) (by omega) []
    have whole := hexNumber_concat (d := (hexDigit (n % 16)).toUpper) (u := u) length front
    rw [hex, List.map_append, List.append_assoc]
    show hexNumber value (count + 1) (_ ++ (hexDigit (n % 16)).toUpper :: u) = _
    rw [whole, hexNumber, table _ (Nat.mod_lt n (by decide)), power]
    show Except.ok _ = _
    congr 1
    have cut := Nat.div_add_mod n 16
    rw [Nat.mul_add, Nat.mul_assoc]
    omega

/-- An escape in double quotes is read as the character that it was written for. -/
theorem takes_escapeText {c : Cursor} {ch : Char} {u : List Char}
    (rest : c.rest = escapeText ch ++ u) :
    Takes true c [ch] (c.forward (escapeText ch).length) := by
  cases named : escapeNames.lookup ch with
  | some name =>
    have table : ∀ pair ∈ escapeNames, escapes.lookup pair.2 = some pair.1 := by decide
    obtain ⟨before, after, whole, -⟩ := List.lookup_eq_some_iff.mp named
    have known := table (ch, name) (by simp [whole])
    have text : escapeText ch = ['\\', name] := by rw [escapeText, named]
    rw [text] at rest ⊢
    have next : c.next.rest = name :: u := by rw [Cursor.rest_next, rest]; rfl
    refine takes_escape (n := 1) rest ?_
    rw [escapeSequence, Cursor.peek_of_cons next, known]
    rfl
  | none =>
    obtain ⟨letter, count, counted, fits, text⟩ := escapeText_unnamed named
    have table : ∀ pair ∈ escapeLengths,
        escapes.lookup pair.1 = none ∧ escapeLengths.lookup pair.1 = some pair.2 := by decide
    obtain ⟨unnamed, known⟩ := table _ counted
    rw [text] at rest ⊢
    have next : c.next.rest = letter :: ((hex count ch.toNat).map Char.toUpper ++ u) := by
      rw [Cursor.rest_next, rest]
      rfl
    have digits : c.next.next.rest = (hex count ch.toNat).map Char.toUpper ++ u := by
      rw [Cursor.rest_next, next]
      rfl
    have number := hexNumber_hex 0 fits u
    rw [Nat.mul_zero, Nat.zero_add] at number
    have small := toNat_lt ch
    have wide : ¬0x7fffffff < ch.toNat := by omega
    have beyond : ¬0x10ffff < ch.toNat := by omega
    have length : ('\\' :: letter :: (hex count ch.toNat).map Char.toUpper).length = count + 1 + 1 := by
      simp [length_hex]
    rw [length]
    refine takes_escape (n := count + 1) rest ?_
    rw [escapeSequence, Cursor.peek_of_cons next, unnamed, known]
    dsimp only
    rw [digits, number]
    dsimp only
    have valid : ch.toNat.isValidChar := ch.valid
    have whole : ¬(!decide ch.toNat.isValidChar) = true := by rw [decide_eq_true valid]; decide
    rw [if_neg wide, if_neg beyond, if_neg whole, Char.ofNat_toNat]
    rfl

/-- Blanks are kept where something else than a break follows. -/
theorem solid_of_literal {c : Char} (stands : isLiteral c = true) (solid : c ≠ ' ') :
    endsWord c = false ∧ c ≠ '"' ∧ c ≠ '\\' := by
  refine ⟨?_, ?_, ?_⟩
  · refine Bool.eq_false_iff.mpr fun ends => ?_
    simp only [endsWord, endsLineOrSpace, endsLine, isBreak, Bool.or_eq_true, beq_iff_eq] at ends
    rcases ends with rfl | rfl | rfl | (((rfl | rfl) | rfl) | rfl) | rfl
    all_goals first
      | exact solid rfl
      | revert stands; decide
  all_goals rintro rfl; revert stands; decide

theorem Escaped.goesOn {column : Nat} {t s : List Char} (h : Escaped column t s)
    (solid : s.head? ≠ some ' ') (u : List Char) : ∃ d v, s ++ '"' :: u = d :: v ∧ endsWord d = false := by
  cases h with
  | nil => exact ⟨_, _, rfl, by decide⟩
  | blank => exact absurd rfl solid
  | literal other stands => exact ⟨_, _, rfl, (solid_of_literal stands other).1⟩
  | @escape c =>
    obtain ⟨rest, text⟩ := escapeText_eq_cons c
    rw [text]
    exact ⟨_, _, rfl, by decide⟩
  | escapedBlank => exact ⟨_, _, rfl, by decide⟩
  | joined => exact ⟨_, _, rfl, by decide⟩

/-- Where two lines are joined nothing is read. -/
theorem takes_joined {c : Cursor} {column : Nat} (indented : 0 < column) {d : Char} {u : List Char}
    (solid : endsWord d = false) (rest : c.rest = '\\' :: (newLine column ++ d :: u)) :
    Takes true c [] (c.forward ('\\' :: newLine column).length) := by
  have next : c.next.rest = '\n' :: (List.replicate column ' ' ++ d :: u) := by
    rw [Cursor.rest_next, rest]
    rfl
  have read := quotedBreaks_line (List.forall_mem_nil _) (u := d :: u) indented
    (by rintro ch ⟨⟩; exact solid) (c := c.next.next) (by rw [Cursor.rest_next, next]; rfl)
    (c.next.next.rest.length + 1) (Nat.succ_pos _)
  have length : ('\\' :: newLine column).length = column + 1 + 1 := by simp [newLine]
  rw [length]
  refine takes_escape (n := column + 1) rest ?_
  have unnamed : escapes.lookup '\n' = none ∧ escapeLengths.lookup '\n' = none := by decide
  rw [escapeSequence, Cursor.peek_of_cons next, unnamed.1, unnamed.2]
  dsimp only
  rw [Cursor.lineBreak?_of_break next (by decide) (by decide)]
  dsimp only
  rw [read, List.length_nil, Nat.zero_add]
  rfl

/-- What follows some blanks comes to stand after them. -/
theorem quotes_blanks {n : Nat} {d : Char} {u t : List Char} {c last : Cursor}
    (rest : c.rest = List.replicate n ' ' ++ d :: u) (solid : endsWord d = false)
    (later : Quotes true (c.forward n) t last) : Quotes true c (List.replicate n ' ' ++ t) last := by
  refine quotes_spaces solid true (fun ch member => (List.mem_replicate.mp member).2) rest ?_
  rwa [List.length_replicate]

/-- Some blanks, a piece that is not blank, and what follows it. -/
theorem quotes_piece (piece p : List Char) {s t u : List Char} {n : Nat} {c : Cursor} {d : Char}
    {v : List Char} (rest : c.rest = List.replicate n ' ' ++ (piece ++ (s ++ u)))
    (begins : piece = d :: v) (solid : endsWord d = false)
    (takes : ∀ c : Cursor, c.rest = piece ++ (s ++ u) → Takes true c p (c.forward piece.length))
    (later : ∀ c : Cursor, c.rest = s ++ u → Quotes true c t (c.forward s.length)) :
    Quotes true c (List.replicate n ' ' ++ (p ++ t)) (c.forward (n + (piece ++ s).length)) := by
  have after : (c.forward n).rest = piece ++ (s ++ u) := by
    rw [Cursor.forward_spaces rest]
  have last := (takes _ after).quotes (later _ (Cursor.rest_forward_length after))
  rw [List.length_append, Cursor.forward_add, Cursor.forward_add]
  rw [begins] at rest
  exact quotes_blanks rest solid last

/-- Blanks are gathered until something else follows them, since the reader takes them at once. -/
theorem quotes_escaped {column : Nat} (indented : 0 < column) {t s u : List Char}
    (escaped : Escaped column t s) {n : Nat} {c : Cursor}
    (rest : c.rest = List.replicate n ' ' ++ (s ++ '"' :: u)) :
    Quotes true c (List.replicate n ' ' ++ t) (c.forward (n + s.length)) := by
  induction escaped generalizing n c with
  | nil =>
    have after : (c.forward n).rest = '"' :: u := by rw [Cursor.forward_spaces rest]; rfl
    exact quotes_blanks rest (by decide) (Quotes.close after (by simp))
  | @blank t s later ih =>
    have more := ih (n := n + 1) (c := c) (by rw [rest, List.replicate_succ']; simp)
    rw [List.replicate_succ', List.append_assoc, Nat.add_assoc, Nat.add_comm 1] at more
    exact more
  | @literal ch t s other stands later ih =>
    obtain ⟨solid, quote, backslash⟩ := solid_of_literal stands other
    exact quotes_piece [ch] _ rest rfl solid
      (fun c rest => takes_char true rest solid quote fun _ => backslash)
      fun c rest => by simpa using ih (n := 0) rest
  | @escape ch t s unliteral later ih =>
    obtain ⟨v, begins⟩ := escapeText_eq_cons ch
    rw [List.append_assoc] at rest
    exact quotes_piece _ _ rest begins (by decide) (fun c rest => takes_escapeText rest)
      fun c rest => by simpa using ih (n := 0) rest
  | @escapedBlank t s later ih =>
    refine quotes_piece ['\\', ' '] [' '] rest rfl (by decide) (fun c rest => ?_)
      fun c rest => by simpa using ih (n := 0) rest
    have next : c.next.rest = ' ' :: (s ++ '"' :: u) := by rw [Cursor.rest_next, rest]; rfl
    refine takes_escape (n := 1) rest ?_
    have known : escapes.lookup ' ' = some ' ' := by decide
    rw [escapeSequence, Cursor.peek_of_cons next, known]
    rfl
  | @joined t s solid later ih =>
    obtain ⟨d, v, next, unbroken⟩ := later.goesOn solid u
    rw [← List.cons_append, List.append_assoc] at rest
    refine quotes_piece _ [] rest rfl (by decide) (fun c rest => ?_)
      fun c rest => by simpa using ih (n := 0) rest
    rw [next] at rest
    exact takes_joined indented unbroken rest

/-- A text in double quotes is read as it is. -/
theorem quotedScalar_double {column : Nat} (indented : 0 < column) {t s u : List Char}
    (spells : SpellsText column .double t s) {c : Cursor} (rest : c.rest = s ++ u) :
    quotedScalar true c = .ok (String.ofList t, c.forward s.length) := by
  obtain ⟨inner, escaped, rfl⟩ := spells
  exact quotedScalar_of_quotes rest fun inside => by
    simpa using quotes_escaped (n := 0) indented escaped inside

end SessionPlan.Yaml
