import SessionPlan.Proofs.Yaml.Block
import SessionPlan.Proofs.Yaml.Requoted
import SessionPlan.Yaml.Lexer

/-! The tokens of a document in blocks. Between two tokens the lexer may stand at different places
and with different memories, but it goes on in the same way: what counts is the state in which it
meets the next token. -/
namespace SessionPlan.Yaml
open SessionPlan.Text

/-- Characters that a token is met at. -/
def IsMet (ch : Char) : Prop := endsWord ch = false ∧ ch ≠ '#' ∧ ch ≠ '\ufeff'

instance (ch : Char) : Decidable (IsMet ch) := inferInstanceAs (Decidable (_ ∧ _))

namespace Lexer
variable {l l' l'' : Lexer}

/-! ### Runs -/

/-- The lexer at the next token, with the candidates that are left. -/
def settle (l : Lexer) : Except Error Lexer :=
  ((l.skipByteOrderMark).skipToToken (l.cursor.rest.length + 1)).dropStale

/-- The token that the settled lexer meets. -/
def meet (l : Lexer) : Except Error Lexer := do
  let l ← (l.unwindTo l.cursor.column).fetchHere
  if l.done then return l else l.dropStale

theorem fetch_eq (l : Lexer) : l.fetch = l.settle >>= meet := rfl

/-- Whatever is cut without a flaw from the second state on is cut from the first one. Every step
between them takes a character. -/
def Leads (l l' : Lexer) : Prop :=
  ∃ n, n + l'.cursor.rest.length ≤ l.cursor.rest.length ∧ ∀ fuel tokens, 0 < fuel →
    run fuel l' = (tokens, none) → run (fuel + n) l = (tokens, none)

theorem Leads.trans (first : l.Leads l') (second : l'.Leads l'') : l.Leads l'' := by
  obtain ⟨n, shorter, runs⟩ := first
  obtain ⟨m, shorter', runs'⟩ := second
  refine ⟨m + n, by omega, fun fuel tokens positive h => ?_⟩
  rw [← Nat.add_assoc]
  exact runs _ tokens (Nat.add_pos_left positive m) (runs' fuel tokens positive h)

theorem run_succ (l : Lexer) (going : l.done = false) (fuel : Nat) :
    run (fuel + 1) l = match l.fetch with
      | .ok next => run fuel next
      | .error e => (l.tokens.take l.settled, some e) := by
  rw [run, going]
  rfl

/-- One token. -/
theorem Leads.of_fetch (going : l.done = false) (fetched : l.fetch = .ok l')
    (shorter : l'.cursor.rest.length < l.cursor.rest.length) : l.Leads l' :=
  ⟨1, by omega, fun fuel tokens _ h => by
    rw [run_succ l going, fetched]
    exact h⟩

/-- Two states that meet the next token alike. -/
theorem Leads.of_fetch_eq (going : l.done = false) (going' : l'.done = false)
    (same : l.fetch = l'.fetch) (shorter : l'.cursor.rest.length ≤ l.cursor.rest.length) :
    l.Leads l' := by
  refine ⟨0, by omega, fun fuel tokens positive h => ?_⟩
  obtain ⟨fuel, rfl⟩ := Nat.exists_eq_add_one_of_ne_zero (Nat.ne_of_gt positive)
  rw [run_succ l' going', ← same] at h
  rw [Nat.add_zero, run_succ l going]
  cases found : l.fetch with
  | ok next =>
    rw [found] at h
    exact h
  | error e =>
    rw [found] at h
    cases h

theorem Leads.of_settle (going : l.done = false) (going' : l'.done = false)
    (settled : l.settle = .ok l') (stands : l'.settle = .ok l')
    (shorter : l'.cursor.rest.length ≤ l.cursor.rest.length) : l.Leads l' :=
  .of_fetch_eq going going' (by rw [fetch_eq, fetch_eq, settled, stands]) shorter

/-! ### States -/

/-- In a block, before the end, and with no token that may still become a key. -/
structure Standing (l : Lexer) : Prop where
  going : l.done = false
  block : l.flowLevel = 0
  settled : l.candidates = []

/-- The same blocks, further on in the text. -/
def extend (l : Lexer) (cursor : Cursor) (more : List Placed) (mayBeKey : Bool) : Lexer :=
  { l with cursor, tokens := l.tokens ++ more, mayBeKey }

theorem Standing.extend (h : l.Standing) (c : Cursor) (more : List Placed) (mayBeKey : Bool) :
    (l.extend c more mayBeKey).Standing := ⟨h.going, h.block, h.settled⟩

theorem extend_extend (l : Lexer) (c c' : Cursor) (more more' : List Placed) (m m' : Bool) :
    (l.extend c more m).extend c' more' m' = l.extend c' (more ++ more') m' := by
  simp [Lexer.extend]

/-- A block that begins at the cursor. -/
def opened (l : Lexer) (token : Token) : Lexer :=
  { l.push token with indent := l.cursor.column, outerIndents := l.indent :: l.outerIndents }

theorem Standing.opened (h : l.Standing) (token : Token) : (l.opened token).Standing :=
  ⟨h.going, h.block, h.settled⟩

/-! ### Before a token -/

theorem skipByteOrderMark_eq (unmarked : l.cursor.peek ≠ '\ufeff') : l.skipByteOrderMark = l := by
  simp [skipByteOrderMark, unmarked]

theorem skipToToken_spaces {n : Nat} {t : List Char}
    (rest : l.cursor.rest = List.replicate n ' ' ++ t)
    (solid : ∀ ch ∈ t.head?, endsWord ch = false ∧ ch ≠ '#') (fuel : Nat) :
    skipToToken (fuel + 1) l = { l with cursor := l.cursor.forward n } := by
  have clear (ch : Char) (head : ch ∈ t.head?) := isBreak_of_solid (solid ch head).1
  have spaces : l.cursor.skipSpaces = l.cursor.forward n := by
    have run := Cursor.takeWhile_append (p := (· == ' ')) rest
      (fun ch member => by simp [(List.mem_replicate.mp member).2])
      fun ch head => by simp [(clear ch head).1]
    rw [Cursor.skipSpaces, Cursor.skipWhile, run, List.length_replicate]
  have after : (l.cursor.forward n).rest = t := by rw [Cursor.forward_spaces rest]
  have unmarked : ((l.cursor.forward n).peek == '#') = false := by
    rw [Cursor.peek, after]
    cases t with
    | nil => rfl
    | cons ch t => simpa using (solid ch rfl).2
  have ended : (l.cursor.forward n).lineBreak? = none :=
    Cursor.lineBreak?_of_solid fun ch head => (clear ch (after ▸ head)).2.2
  rw [skipToToken, spaces, unmarked, if_neg Bool.false_ne_true, ended]

theorem skipToToken_newLine (block : l.flowLevel = 0) {n : Nat} {t : List Char}
    (rest : l.cursor.rest = newLine n ++ t)
    (solid : ∀ ch ∈ t.head?, endsWord ch = false ∧ ch ≠ '#') (fuel : Nat) :
    skipToToken (fuel + 2) l =
      { l with cursor := l.cursor.forward (n + 1), mayBeKey := true } := by
  have stays : l.cursor.skipSpaces = l.cursor := by
    have run := Cursor.takeWhile_append (p := (· == ' ')) (s := []) rest (by simp) (by simp)
    rw [Cursor.skipSpaces, Cursor.skipWhile, run]
    rfl
  have unmarked : (l.cursor.peek == '#') = false := by
    rw [Cursor.peek_of_cons rest]
    decide
  have broken := Cursor.lineBreak?_of_break (s := List.replicate n ' ' ++ t) rest (by decide)
    (by decide)
  rw [skipToToken, stays, unmarked, if_neg Bool.false_ne_true, broken]
  dsimp only
  rw [skipToToken_spaces (n := n) (t := t) (by
    show l.cursor.next.rest = _
    rw [Cursor.rest_next, rest]
    rfl) solid]
  simp [inFlow, block, Cursor.forward]

/-- Candidates of an earlier line that need not be keys are forgotten. -/
theorem dropStale_forgets {c : Cursor} {m : Bool}
    (old : ∀ found ∈ l.candidates, found.2.required = false ∧ found.2.line ≠ c.line) :
    dropStale { l with cursor := c, mayBeKey := m } =
      .ok { l with cursor := c, mayBeKey := m, candidates := [] } := by
  rw [dropStale, if_neg, List.filter_eq_nil_iff.mpr]
  · rfl
  · intro found member
    simp [isStale, (old found member).2]
  · simp only [List.any_eq_true, not_exists, not_and]
    rintro found member required
    simp [(old found member).1] at required

/-- A lexer that settles further on in the text. -/
theorem settle_forgets {c : Cursor} {m : Bool} (unmarked : l.cursor.peek ≠ '\ufeff')
    (skipped : skipToToken (l.cursor.rest.length + 1) l = { l with cursor := c, mayBeKey := m })
    (old : ∀ found ∈ l.candidates, found.2.required = false ∧ found.2.line ≠ c.line) :
    l.settle = .ok { l with cursor := c, mayBeKey := m, candidates := [] } := by
  rw [settle, skipByteOrderMark_eq unmarked, skipped, dropStale_forgets old]

/-- What the next token begins with. -/
def Meets (l : Lexer) : Prop := ∀ ch ∈ l.cursor.rest.head?, IsMet ch

theorem peek_ne_of_meets (meets : l.Meets) : l.cursor.peek ≠ '\ufeff' := by
  rw [Cursor.peek]
  cases rest : l.cursor.rest with
  | nil => decide
  | cons ch t =>
    have clear := meets ch (by rw [rest]; rfl)
    exact clear.2.2

theorem skipToToken_meets (meets : l.Meets) (fuel : Nat) : skipToToken (fuel + 1) l = l :=
  skipToToken_spaces (n := 0) rfl (fun ch head => ⟨(meets ch head).1, (meets ch head).2.1⟩) fuel

/-- A token that comes next at once. -/
theorem settle_meets (meets : l.Meets)
    (old : ∀ found ∈ l.candidates, found.2.required = false ∧ found.2.line ≠ l.cursor.line) :
    l.settle = .ok { l with candidates := [] } :=
  settle_forgets (m := l.mayBeKey) (peek_ne_of_meets meets) (skipToToken_meets meets _) old

/-- A token that begins the next line. -/
theorem settle_newLine (block : l.flowLevel = 0) {k : Nat} {t : List Char}
    (rest : l.cursor.rest = newLine k ++ t) (begins : Begins t)
    (old : ∀ found ∈ l.candidates, found.2.required = false ∧
      found.2.line ≠ (l.cursor.forward (k + 1)).line) :
    l.settle = .ok { l with cursor := l.cursor.forward (k + 1), mayBeKey := true, candidates := [] } := by
  have unmarked : l.cursor.peek ≠ '\ufeff' := by
    rw [Cursor.peek_of_cons rest]
    decide
  have fuel : l.cursor.rest.length + 1 = (l.cursor.rest.length - 1) + 2 := by
    rw [rest]
    rfl
  have skipped := skipToToken_newLine block rest
    (fun ch head => ⟨(begins.head ch head).1, (begins.head ch head).2.1⟩) (l.cursor.rest.length - 1)
  rw [← fuel] at skipped
  exact settle_forgets unmarked skipped old

theorem Standing.settle (h : l.Standing) (meets : l.Meets) : l.settle = .ok l := by
  rw [settle_meets meets (by simp [h.settled]), ← h.settled]

theorem Standing.fetch (h : l.Standing) (meets : l.Meets) : l.fetch = l.meet := by
  rw [fetch_eq, h.settle meets]
  rfl

/-! ### Opening and closing blocks -/

theorem Standing.inFlow (h : l.Standing) : l.inFlow = false := by simp [Lexer.inFlow, h.block]

theorem unwindTo_of_le (block : l.flowLevel = 0) {column : Int} (inside : l.indent ≤ column) :
    l.unwindTo column = l := by
  have flow : l.inFlow = false := by simp [Lexer.inFlow, block]
  rw [unwindTo, unwind.eq_def, flow, if_neg Bool.false_ne_true, if_pos inside]

/-- Where the block stands does not count once it is being closed. -/
theorem unwind_relocated (block : l.flowLevel = 0) (column i a : Int) (outer b : List Int) :
    unwind column i outer { l with indent := a, outerIndents := b } = unwind column i outer l := by
  induction outer generalizing i l with
  | nil => simp [unwind, Lexer.inFlow, block, push, place]
  | cons around outer ih =>
    have flow : l.inFlow = false := by simp [Lexer.inFlow, block]
    have flow' : ({ l with indent := a, outerIndents := b } : Lexer).inFlow = false := flow
    rw [unwind, unwind, flow, flow', if_neg Bool.false_ne_true, if_neg Bool.false_ne_true]
    by_cases fits : i ≤ column
    · rw [if_pos fits, if_pos fits]
    · rw [if_neg fits, if_neg fits]
      exact ih (l := l.push .blockEnd) block around

/-- The block that ends before the next token. -/
def closed (l : Lexer) (around : Int) (outer : List Int) : Lexer :=
  { l.push .blockEnd with indent := around, outerIndents := outer }

theorem Standing.closed (h : l.Standing) (around : Int) (outer : List Int) :
    (l.closed around outer).Standing := ⟨h.going, h.block, h.settled⟩

theorem Standing.leads_closed (h : l.Standing) (meets : l.Meets) {around : Int} {outer : List Int}
    (outers : l.outerIndents = around :: outer) (left : (l.cursor.column : Int) < l.indent) :
    l.Leads (l.closed around outer) := by
  refine .of_fetch_eq h.going h.going ?_ (Nat.le_refl _)
  have unwound : l.unwindTo l.cursor.column =
      (l.closed around outer).unwindTo (l.closed around outer).cursor.column := by
    have closes : l.unwindTo l.cursor.column =
        unwind l.cursor.column around outer (l.push .blockEnd) := by
      rw [unwindTo, unwind.eq_def, h.inFlow, if_neg Bool.false_ne_true, if_neg (Int.not_le.mpr left),
        outers]
    rw [closes]
    exact (unwind_relocated (l := l.push .blockEnd) h.block _ _ _ _ _).symm
  rw [h.fetch meets, (h.closed around outer).fetch meets, meet, meet, unwound]

/-! ### Candidates -/

theorem Standing.dropStale (h : l.Standing) : l.dropStale = .ok l := by
  obtain ⟨cursor, tokens, done, flowLevel, indent, outerIndents, mayBeKey, candidates⟩ := l
  obtain rfl : candidates = [] := h.settled
  rfl

theorem Standing.dropCandidate (h : l.Standing) : l.dropCandidate = .ok l := by
  obtain ⟨cursor, tokens, done, flowLevel, indent, outerIndents, mayBeKey, candidates⟩ := l
  obtain rfl : candidates = [] := h.settled
  rfl

/-- One token after another. -/
theorem meet_eq (l' : Lexer) (found : (l.unwindTo l.cursor.column).fetchHere = .ok l')
    (going : l'.done = false) : l.meet = l'.dropStale := by
  rw [meet, found, ok_bind, going]
  rfl

/-! ### Single tokens -/

theorem fetchHere_dash {u : List Char} (rest : l.cursor.rest = '-' :: ' ' :: u) :
    l.fetchHere = l.fetchBlockEntry := by
  have head := Cursor.peek_of_cons rest
  have second := Cursor.peekAt_one_of_cons rest
  simp [fetchHere, head, second, rest, Cursor.atMarker, endsWord, endsLineOrSpace]

theorem fetchHere_colon {u : List Char} (rest : l.cursor.rest = ':' :: u)
    (isolated : endsWord (u.headD '\x00') = true) : l.fetchHere = l.fetchValue := by
  have head := Cursor.peek_of_cons rest
  have second := Cursor.peekAt_one_of_cons rest
  rw [← second] at isolated
  simp [fetchHere, head, rest, isolated, Cursor.atMarker]

theorem fetchHere_quote (double : Bool) {u : List Char} (rest : l.cursor.rest = quoteOf double :: u) :
    l.fetchHere = l.fetchQuoted double := by
  have head := Cursor.peek_of_cons rest
  cases double <;> simp [fetchHere, head, rest, Cursor.atMarker, quoteOf]

theorem fetchHere_end (rest : l.cursor.rest = []) : l.fetchHere = l.fetchStreamEnd := by
  simp [fetchHere, rest]

theorem fetchHere_plain {ch : Char} {u : List Char} (rest : l.cursor.rest = ch :: u)
    (solid : endsWord ch = false) (unmarked : isLeadingIndicator ch = false)
    (followed : ch = '?' ∨ ch = ':' ∨ ch = '-' → endsWord (u.headD '\x00') = false)
    (block : l.flowLevel = 0) (inside : 0 < l.cursor.column ∨ ch ≠ '-' ∧ ch ≠ '.') :
    l.fetchHere = l.fetchPlain := by
  have head := Cursor.peek_of_cons rest
  have second := Cursor.peekAt_one_of_cons rest
  rw [← second] at followed
  have dash (mark : Char) (marked : mark = '-' ∨ mark = '.') :
      (l.cursor.column == 0 && l.cursor.atMarker mark) = false := by
    rw [Bool.and_eq_false_iff]
    rcases inside with beyond | apart
    · exact .inl (beq_eq_false_iff_ne.mpr (Nat.ne_of_gt beyond))
    · refine .inr (atMarker_of_head (head ▸ ?_))
      rcases marked with rfl | rfl
      · exact apart.1
      · exact apart.2
  simp only [isLeadingIndicator, List.contains_eq_mem, decide_eq_false_iff_not] at unmarked
  have others : ch ≠ '#' ∧ ch ≠ ',' ∧ ch ≠ '[' ∧ ch ≠ ']' ∧ ch ≠ '{' ∧ ch ≠ '}' ∧ ch ≠ '&' ∧ ch ≠ '*' ∧
      ch ≠ '!' ∧ ch ≠ '|' ∧ ch ≠ '>' ∧ ch ≠ '\'' ∧ ch ≠ '"' ∧ ch ≠ '%' ∧ ch ≠ '@' ∧ ch ≠ '\x60' := by
    refine ⟨?_, ?_, ?_, ?_, ?_, ?_, ?_, ?_, ?_, ?_, ?_, ?_, ?_, ?_, ?_, ?_⟩ <;> rintro rfl <;>
      exact unmarked (by decide)
  have dashes := dash '-' (.inl rfl)
  have points := dash '.' (.inr rfl)
  by_cases indicator : ch = '?' ∨ ch = ':' ∨ ch = '-'
  · have clear := followed indicator
    rcases indicator with rfl | rfl | rfl <;>
      simp [fetchHere, head, rest, dashes, points, clear, startsPlain, inFlow, block]
  · simp only [not_or] at indicator
    simp [fetchHere, head, rest, dashes, points, others, indicator, startsPlain, inFlow, block, solid]

/-- A dash in a list that is open. -/
theorem Standing.leads_entry (h : l.Standing) (allowed : l.mayBeKey = true) {u : List Char}
    (rest : l.cursor.rest = '-' :: ' ' :: u) (inside : l.indent = l.cursor.column) :
    l.Leads (l.extend l.cursor.next [l.place .blockEntry] true) := by
  have meets : l.Meets := by
    rw [Meets, rest]
    rintro ch ⟨⟩
    decide
  have closed : l.openBlock? l.cursor.column = none := if_neg (by omega)
  have entry : l.fetchBlockEntry = .ok (l.extend l.cursor.next [l.place .blockEntry] true) := by
    have opens : l.openFor .blockSequenceStart .entryNotAllowed = .ok l := by
      rw [openFor, h.inFlow, allowed, closed]
      rfl
    rw [fetchBlockEntry, opens, ok_bind, h.dropCandidate]
    rfl
  have here : (l.unwindTo l.cursor.column).fetchHere =
      .ok (l.extend l.cursor.next [l.place .blockEntry] true) := by
    rw [unwindTo_of_le h.block (Int.le_of_eq inside), fetchHere_dash rest, entry]
  refine .of_fetch h.going ?_ ?_
  · rw [h.fetch meets, meet_eq _ here h.going, (h.extend _ _ _).dropStale]
  · show l.cursor.next.rest.length < _
    rw [Cursor.rest_next, rest]
    exact Nat.lt_succ_self _

theorem Standing.leads_sequence (h : l.Standing) (allowed : l.mayBeKey = true) {u : List Char}
    (rest : l.cursor.rest = '-' :: ' ' :: u) (outside : l.indent < l.cursor.column) :
    l.Leads (l.opened .blockSequenceStart) := by
  have meets : l.Meets := by
    rw [Meets, rest]
    rintro ch ⟨⟩
    decide
  have entry : l.fetchBlockEntry = (l.opened .blockSequenceStart).fetchBlockEntry := by
    have opens : l.openBlock? l.cursor.column = some { l with
        indent := l.cursor.column, outerIndents := l.indent :: l.outerIndents } := if_pos outside
    have open' : (l.opened .blockSequenceStart).openBlock?
        (l.opened .blockSequenceStart).cursor.column = none := if_neg (Int.lt_irrefl _)
    have flow := h.inFlow
    have flow' := (h.opened .blockSequenceStart).inFlow
    have allowed' : (l.opened .blockSequenceStart).mayBeKey = true := allowed
    rw [fetchBlockEntry, fetchBlockEntry, openFor, openFor, flow, flow', allowed, allowed', opens, open']
    rfl
  refine .of_fetch_eq h.going h.going ?_ (Nat.le_refl _)
  have inside : (l.opened .blockSequenceStart).unwindTo
      (l.opened .blockSequenceStart).cursor.column = l.opened .blockSequenceStart :=
    unwindTo_of_le (h.opened .blockSequenceStart).block (Int.le_refl _)
  rw [h.fetch meets, (h.opened .blockSequenceStart).fetch meets, meet, meet, inside,
    unwindTo_of_le h.block (Int.le_of_lt outside), fetchHere_dash rest,
    fetchHere_dash (l := l.opened .blockSequenceStart) rest, entry]

/-! ### Scalars -/

/-- A new candidate for the token that comes next. -/
theorem Standing.addCandidate (h : l.Standing) (allowed : l.mayBeKey = true) :
    l.addCandidate = .ok { l with candidates := [(0, ⟨l.tokens.length, l.indent == l.cursor.column,
      l.cursor.index, l.cursor.line, l.cursor.column⟩)] } := by
  rw [Lexer.addCandidate, if_neg (by simp [allowed]), h.dropCandidate, ok_bind, h.inFlow, h.block,
    h.settled]
  rfl

/-- A scalar that does not stand where a key must is at most a candidate of its line. -/
theorem Standing.addCandidate_inside (h : l.Standing) (inside : l.indent < l.cursor.column) :
    ∃ candidates, l.addCandidate = .ok { l with candidates } ∧
      ∀ found ∈ candidates, found.2.required = false ∧ found.2.line = l.cursor.line := by
  by_cases allowed : l.mayBeKey = true
  · refine ⟨_, h.addCandidate allowed, ?_⟩
    simpa using Int.ne_of_lt inside
  · refine ⟨[], ?_, by simp⟩
    rw [Lexer.addCandidate, if_pos (by simp [allowed]), ← h.settled]
    rfl

theorem dropStale_keeps (free : ∀ found ∈ l.candidates, found.2.required = false) :
    ∃ kept, (∀ found ∈ kept, found ∈ l.candidates) ∧
      l.dropStale = .ok { l with candidates := kept } := by
  refine ⟨_, fun found member => (List.mem_filter.mp member).1, if_neg ?_⟩
  simp only [List.any_eq_true, not_exists, not_and]
  rintro found member required
  simp [free found member] at required

/-- A scalar in a block. The line after it is met with no candidate left, whether the break before
it has been read with the scalar or not. -/
theorem Standing.leads_scalar (h : l.Standing) (meets : l.Meets)
    (inside : l.indent < l.cursor.column) {token : Token} {c last : Cursor} {m : Bool}
    {candidates : List (Nat × Candidate)}
    (here : l.fetchHere = .ok { l.extend c [l.place token] m with candidates })
    (old : ∀ found ∈ candidates, found.2.required = false ∧ found.2.line = l.cursor.line)
    (shorter : c.rest.length < l.cursor.rest.length) {k : Nat} {t : List Char} (begins : Begins t)
    (next : c.rest = t ∧ last = c ∧ m = true ∨ c.rest = newLine k ++ t ∧ last = c.forward (k + 1))
    (further : l.cursor.line < last.line) :
    l.Leads (l.extend last [l.place token] true) := by
  obtain ⟨kept, known, dropped⟩ := dropStale_keeps
    (l := { l.extend c [l.place token] m with candidates }) fun found member => (old found member).1
  have free (found : Nat × Candidate) (member : found ∈ kept) :
      found.2.required = false ∧ found.2.line ≠ last.line := by
    have one := old found (known found member)
    exact ⟨one.1, by rw [one.2]; exact Nat.ne_of_lt further⟩
  have first : l.Leads { l.extend c [l.place token] m with candidates := kept } := by
    refine .of_fetch h.going ?_ shorter
    rw [h.fetch meets, meet_eq { l.extend c [l.place token] m with candidates } ?_ h.going,
      dropped]
    rw [unwindTo_of_le h.block (Int.le_of_lt inside), here]
  have reached : last.rest = t := by
    rcases next with ⟨rest, rfl, -⟩ | ⟨rest, rfl⟩
    · exact rest
    · rw [forward_newLine rest]
  have meets' : (l.extend last [l.place token] true).Meets := fun ch head =>
    begins.head ch (reached ▸ head)
  refine first.trans (.of_settle h.going h.going ?_ ((h.extend last _ true).settle meets') ?_)
  · rcases next with ⟨rest, rfl, rfl⟩ | ⟨rest, rfl⟩
    · refine (settle_meets (l := { l.extend last [l.place token] true with candidates := kept })
        meets' free).trans ?_
      rw [← h.settled]
      rfl
    · refine (settle_newLine (l := { l.extend c [l.place token] m with candidates := kept }) h.block
        rest begins free).trans ?_
      rw [← h.settled]
      rfl
  · show last.rest.length ≤ c.rest.length
    rcases next with ⟨rest, rfl, -⟩ | ⟨rest, rfl⟩
    · exact Nat.le_refl _
    · rw [Cursor.rest_forward, List.length_drop]
      exact Nat.sub_le _ _

theorem Standing.leads_space (h : l.Standing) {ch : Char} {v : List Char}
    (rest : l.cursor.rest = ' ' :: ch :: v) (met : IsMet ch) :
    l.Leads (l.extend l.cursor.next [] l.mayBeKey) := by
  have next : l.cursor.next.rest = ch :: v := by rw [Cursor.rest_next, rest]; rfl
  have skipped := skipToToken_spaces (n := 1) (t := ch :: v) rest
    (by rintro _ ⟨⟩; exact ⟨met.1, met.2.1⟩) l.cursor.rest.length
  have settled : l.settle = .ok (l.extend l.cursor.next [] l.mayBeKey) := by
    have unmarked : l.cursor.peek ≠ '\ufeff' := by
      rw [Cursor.peek_of_cons rest]
      decide
    rw [settle_forgets unmarked skipped (by simp [h.settled]), ← h.settled]
    simp [Lexer.extend, Cursor.forward]
  have meets : (l.extend l.cursor.next [] l.mayBeKey).Meets := by
    intro c head
    rw [show (l.extend l.cursor.next [] l.mayBeKey).cursor.rest = ch :: v from next] at head
    cases head
    exact met
  refine .of_settle h.going h.going settled ((h.extend _ _ _).settle meets) ?_
  show l.cursor.next.rest.length ≤ _
  rw [Cursor.rest_next, List.length_tail]
  exact Nat.sub_le _ _

theorem Standing.leads_newLine (h : l.Standing) {k : Nat} {v : List Char}
    (rest : l.cursor.rest = newLine k ++ v) (begins : Begins v) :
    l.Leads (l.extend (l.cursor.forward (k + 1)) [] true) := by
  have next : (l.cursor.forward (k + 1)).rest = v := by rw [forward_newLine rest]
  have settled : l.settle = .ok (l.extend (l.cursor.forward (k + 1)) [] true) := by
    rw [settle_newLine h.block rest begins (by simp [h.settled]), ← h.settled]
    simp [Lexer.extend]
  have meets : (l.extend (l.cursor.forward (k + 1)) [] true).Meets := by
    intro c head
    exact begins.head c (next ▸ head)
  refine .of_settle h.going h.going settled ((h.extend _ _ _).settle meets) ?_
  show (l.cursor.forward (k + 1)).rest.length ≤ _
  rw [Cursor.rest_forward, List.length_drop]
  exact Nat.sub_le _ _

end Lexer

/-- What a text in a style is read as. -/
def reading (style : Style) (t : List Char) : List Char :=
  match style with
  | .single => singleReading (runs t)
  | .plain | .double => t

/-- The first character of a plain text, with what is written after it. -/
theorem SpellsText.plain_head {column : Nat} {t s : List Char} (fits : Fits .plain t)
    (spells : SpellsText column .plain t s) (u : List Char) :
    ∃ ch v, s = ch :: v ∧ IsMet ch ∧ isLeadingIndicator ch = false ∧
      (ch = '?' ∨ ch = ':' ∨ ch = '-' → endsWord ((v ++ u).headD '\x00') = false) := by
  obtain ⟨words, clear, ch, t', rfl, solid, unmarked, followed⟩ := areWords_plain fits.1 fits.2
  obtain ⟨run, others, cut, joint⟩ := runs_cons ch t'
  have word {c : Char} (solid : endsWord c = false) : runKind c = .word := by
    have apart := isBreak_of_solid solid
    refine runKind_word.mpr ⟨apart.1, ?_⟩
    refine Bool.eq_false_iff.mpr fun breaks => ?_
    exact Bool.false_ne_true (apart.2.2.symm.trans (isBreak_of_textBreak breaks).1)
  have met : IsMet ch := by
    refine ⟨solid, ?_, ?_⟩
    · rintro rfl
      exact absurd unmarked (by decide)
    · rintro rfl
      exact absurd (clear _ List.mem_cons_self) (by decide)
  rw [SpellsText, cut, word solid] at spells
  cases spells with
  | @run kind _ rest more later =>
    refine ⟨ch, run ++ more, rfl, met, unmarked, fun indicator => ?_⟩
    cases t' with
    | nil => exact absurd (followed indicator) (by decide)
    | cons d t' =>
      have next : endsWord d = false := followed indicator
      obtain ⟨run', others', cut', -⟩ := runs_cons d t'
      rw [word next] at cut'
      rcases joint with joint | ⟨rfl, joint, other⟩
      · rw [cut'] at joint
        obtain ⟨-, rfl⟩ := Prod.mk.inj (List.cons.inj joint).1
        exact next
      · rw [cut'] at joint
        exact absurd (word solid).symm (other _ (by rw [← joint]; rfl))

namespace Lexer
variable {l : Lexer}

theorem Standing.leads_plain (h : l.Standing) {column : Nat} (indented : l.indent = column)
    (inside : l.indent < l.cursor.column) {t s : List Char} (fits : Fits .plain t)
    (spells : SpellsText (column + 2) .plain t s) {k : Nat} {u : List Char} (begins : Begins u)
    (outside : k ≤ column) (rest : l.cursor.rest = s ++ (newLine k ++ u)) :
    ∃ last, l.Leads (l.extend last [l.place (.scalar (String.ofList t) true)] true) ∧
      last.rest = u ∧ last.column = k := by
  obtain ⟨ch, v, rfl, met, unmarked, followed⟩ := spells.plain_head fits (newLine k ++ u)
  have read := plainScalar_spelled (l.indent + 1) fits spells begins (by omega)
    (Nat.succ_pos _) (by omega) rest (by omega)
  have after := Cursor.rest_forward_length rest
  have last := forward_newLine after
  rw [← Cursor.forward_add] at last
  have meets : l.Meets := by
    rw [Meets, rest]
    rintro _ ⟨⟩
    exact met
  obtain ⟨candidates, added, old⟩ := h.addCandidate_inside inside
  have here : l.fetchHere = .ok { l.extend (l.cursor.forward ((ch :: v).length + (k + 1)))
      [l.place (.scalar (String.ofList t) true)] true with candidates } := by
    have flow : ({ l with candidates } : Lexer).inFlow = false := h.inFlow
    rw [fetchHere_plain rest met.1 unmarked followed h.block (.inl (by omega)), fetchPlain, added,
      ok_bind, flow, read]
    rfl
  have line := Cursor.line_le_forward l.cursor (ch :: v).length
  refine ⟨_, h.leads_scalar (k := k) meets inside here old ?_ begins (.inl ⟨?_, rfl, rfl⟩) ?_, ?_, ?_⟩
  · rw [last, rest]
    simp only [List.length_append, List.length_cons, newLine]
    omega
  · rw [last]
  · rw [last]
    exact Nat.lt_succ_of_le line
  · rw [last]
  · rw [last]

theorem Standing.leads_quoted (h : l.Standing) (double : Bool)
    (inside : l.indent < l.cursor.column) {s t : List Char} (quoted : s.head? = some (quoteOf double))
    (read : quotedScalar double l.cursor = .ok (String.ofList t, l.cursor.forward s.length))
    {k : Nat} {u : List Char} (begins : Begins u) (rest : l.cursor.rest = s ++ (newLine k ++ u)) :
    ∃ last, l.Leads (l.extend last [l.place (.scalar (String.ofList t) false)] true) ∧
      last.rest = u ∧ last.column = k := by
  have after := Cursor.rest_forward_length rest
  have last := forward_newLine after
  obtain ⟨v, rfl⟩ : ∃ v, s = quoteOf double :: v := by
    cases s with
    | nil => cases quoted
    | cons ch v => cases quoted; exact ⟨v, rfl⟩
  have meets : l.Meets := by
    rw [Meets, rest]
    rintro _ ⟨⟩
    cases double <;> decide
  obtain ⟨candidates, added, old⟩ := h.addCandidate_inside inside
  have here : l.fetchHere = .ok { l.extend (l.cursor.forward (quoteOf double :: v).length)
      [l.place (.scalar (String.ofList t) false)] false with candidates } := by
    rw [fetchHere_quote double rest, fetchQuoted, added, ok_bind, read]
    rfl
  have line := Cursor.line_le_forward l.cursor (quoteOf double :: v).length
  refine ⟨_, h.leads_scalar meets inside here old ?_ begins (.inr ⟨after, rfl⟩) ?_, ?_, ?_⟩
  · rw [after, rest]
    simp only [List.length_append, List.length_cons]
    omega
  · rw [last]
    exact Nat.lt_succ_of_le line
  · rw [last]
  · rw [last]

/-- A text in any style is one token, and the lexer goes on with the next line. -/
theorem Standing.leads_text (h : l.Standing) {column : Nat} (indented : l.indent = column)
    (inside : l.indent < l.cursor.column) {style : Style} {t s : List Char} (fits : Fits style t)
    (spells : SpellsText (column + 2) style t s) {k : Nat} {u : List Char} (begins : Begins u)
    (outside : k ≤ column) (rest : l.cursor.rest = s ++ (newLine k ++ u)) :
    ∃ last, l.Leads (l.extend last
      [l.place (.scalar (String.ofList (reading style t)) (style == .plain))] true) ∧
      last.rest = u ∧ last.column = k := by
  have apart : (newLine k ++ u).head? ≠ some '\'' := by simp [newLine]
  cases style with
  | plain => exact h.leads_plain indented inside fits spells begins outside rest
  | single =>
    have read := quotedScalar_single (Nat.succ_pos _) fits spells apart rest
    obtain ⟨inner, -, rfl⟩ := spells
    exact h.leads_quoted false inside rfl read begins rest
  | double =>
    have read := quotedScalar_double (Nat.succ_pos _) spells rest
    obtain ⟨inner, -, rfl⟩ := spells
    exact h.leads_quoted true inside rfl read begins rest

end Lexer
end SessionPlan.Yaml
