import SessionPlan.Proofs.Lists
import SessionPlan.Proofs.Yaml.Lexed

/-! The tokens of a tree that is spelled in blocks. A list or mapping opens a block where it begins
and is closed by the line that follows it; only a list under a key needs no block of its own. -/
namespace SessionPlan.Yaml
open SessionPlan.Text SessionPlan.Tree

/-! ### Keys -/

theorem plainLength_name {w u : List Char} (named : ∀ c ∈ w, c ∈ nameChars)
    (isolated : endsWord (u.headD '\x00') = true) :
    plainLength false (w ++ ':' :: u) = w.length := by
  induction w with
  | nil => rw [List.nil_append, plainLength, if_pos (by rw [isolated]; simp)]; rfl
  | cons c w ih =>
    have table : ∀ c ∈ nameChars, endsWord c = false ∧ c ≠ ':' :=
      List.all_iff_forall_prop.mp (by decide)
    obtain ⟨first, others⟩ := List.forall_mem_cons.mp named
    obtain ⟨solid, uncoloned⟩ := table c first
    rw [List.cons_append, plainLength, if_neg (by simp [solid, uncoloned]), ih others,
      List.length_cons, Nat.add_comm]

/-- A key is read up to its colon. -/
theorem plainScalar_name {name : String} (named : IsName name) {c : Cursor} {u : List Char}
    (rest : c.rest = name.toList ++ ':' :: u) (isolated : endsWord (u.headD '\x00') = true)
    (indent : Int) :
    plainScalar false indent c = (name, false, c.forward name.toList.length) := by
  have nonempty := (styleOf_plain named.plain).2.1
  obtain ⟨d, w, letters⟩ := List.exists_cons_of_ne_nil nonempty
  have table : ∀ c ∈ nameChars, c ≠ '#' := List.all_iff_forall_prop.mp (by decide)
  have unmarked : (c.peek == '#') = false := by
    rw [letters] at rest
    rw [Cursor.peek_of_cons rest]
    exact beq_eq_false_iff_ne.mpr (table d (named.chars d (letters ▸ List.mem_cons_self)))
  have after := Cursor.rest_forward_length rest
  have spaces : plainSpaces (c.forward name.toList.length) =
      ([], false, c.forward name.toList.length) := by
    have run : (c.forward name.toList.length).takeWhile (· == ' ') =
        ([], c.forward name.toList.length) :=
      Cursor.takeWhile_append (s := []) after (by simp) (by simp)
    have unbroken : (c.forward name.toList.length).lineBreak? = none :=
      Cursor.lineBreak?_of_solid (by rw [after]; rintro ch ⟨⟩; decide)
    rw [plainSpaces, run]
    dsimp only
    rw [unbroken]
  have positive : name.toList.length ≠ 0 := fun empty => nonempty (List.length_eq_zero_iff.mp empty)
  rw [plainScalar, plainFrom, unmarked, if_neg Bool.false_ne_true, rest,
    plainLength_name named.chars isolated, if_neg positive, spaces, List.take_left]
  simp

namespace Lexer
variable {l : Lexer}

/-- The block that the next token stands in: it begins there unless it is open. -/
def inBlock (l : Lexer) (token : Token) : Lexer :=
  if l.indent < l.cursor.column then l.opened token else l

theorem Standing.inBlock (h : l.Standing) (token : Token) : (l.inBlock token).Standing := by
  unfold Lexer.inBlock
  split
  · exact h.opened token
  · exact h

theorem indent_inBlock {token : Token} (inside : l.indent ≤ l.cursor.column) :
    (l.inBlock token).indent = l.cursor.column := by
  unfold Lexer.inBlock
  split
  · rfl
  · omega

theorem insertIdx_length {α : Type} (front back : List α) (x : α) :
    (front ++ back).insertIdx front.length x = front ++ x :: back := by
  rw [insertIdx_eq_append (by simp), List.take_left, List.drop_left]

theorem dropStale_fresh (fresh : ∀ found ∈ l.candidates, l.isStale found.2 = false) :
    l.dropStale = .ok l := by
  rw [dropStale, if_neg, List.filter_eq_self.mpr]
  · rfl
  · rintro found member
    simp [fresh found member]
  · simp only [List.any_eq_true, not_exists, not_and]
    rintro found member stale
    simp [fresh found member] at stale

/-- The lexer at the colon after a name, which may be a key. -/
def named (l : Lexer) (name : String) : Lexer :=
  { l.extend (l.cursor.forward name.toList.length) [l.place (.scalar name true)] false with
    candidates := [(0, ⟨l.tokens.length, l.indent == l.cursor.column, l.cursor.index, l.cursor.line,
      l.cursor.column⟩)] }

section Names
variable {name : String} {u : List Char} (rest : l.cursor.rest = name.toList ++ ':' :: u)
include rest

theorem rest_named : (l.named name).cursor.rest = ':' :: u := Cursor.rest_forward_length rest

variable (short : IsName name)
include short

/-- A name is on one line. -/
theorem line_named : (l.named name).cursor.line = l.cursor.line ∧
    l.cursor.column ≤ (l.named name).cursor.column := by
  have table : ∀ c ∈ nameChars, isBreak c = false := List.all_iff_forall_prop.mp (by decide)
  exact Cursor.forward_of_unbroken rest fun c member => table c (short.chars c member)

theorem dropStale_named : (l.named name).dropStale = .ok (l.named name) := by
  have index : (l.named name).cursor.index ≤ _ := Cursor.index_forward_le l.cursor name.toList.length
  have length := short.short
  refine dropStale_fresh (List.forall_mem_singleton.mpr ?_)
  simp only [isStale, Bool.or_eq_false_iff, bne_eq_false_iff_eq, decide_eq_false_iff_not]
  exact ⟨(line_named rest short).1.symm, by omega⟩

theorem Standing.leads_named (h : l.Standing) (allowed : l.mayBeKey = true)
    (isolated : endsWord (u.headD '\x00') = true) (inside : l.indent ≤ l.cursor.column) :
    l.Leads (l.named name) := by
  obtain ⟨ch, letters, whole⟩ := List.exists_cons_of_ne_nil (styleOf_plain short.plain).2.1
  have table : ∀ c ∈ nameChars, IsMet c ∧ isLeadingIndicator c = false ∧
      ¬(c = '?' ∨ c = ':' ∨ c = '-') ∧ c ≠ '.' := List.all_iff_forall_prop.mp (by decide)
  obtain ⟨met, unmarked, unfollowed, point⟩ := table ch (short.chars ch (whole ▸ List.mem_cons_self))
  have rest' : l.cursor.rest = ch :: (letters ++ ':' :: u) := by rw [rest, whole]; rfl
  have meets : l.Meets := by
    rw [Meets, rest']
    rintro _ ⟨⟩
    exact met
  have here : l.fetchHere = .ok (l.named name) := by
    have flow : ({ l with candidates := (l.named name).candidates } : Lexer).inFlow = false := h.inFlow
    rw [fetchHere_plain rest' met.1 unmarked (fun bad => absurd bad unfollowed) h.block
      (.inr ⟨fun dash => unfollowed (.inr (.inr dash)), point⟩), fetchPlain, h.addCandidate allowed,
      ok_bind]
    dsimp only [named] at flow
    rw [flow, plainScalar_name short rest isolated]
    rfl
  refine .of_fetch h.going ?_ ?_
  · rw [h.fetch meets, meet_eq (l.named name) ?_ h.going, dropStale_named rest short]
    rw [unwindTo_of_le h.block inside, here]
  · rw [rest_named rest, rest', List.length_cons, List.length_cons, List.length_append,
      List.length_cons]
    omega

end Names

/-- The colon tells that the name before it is a key, and the tokens that this takes are put in
before it. -/
theorem Standing.fetchValue_named (h : l.Standing) (name : String) :
    (l.named name).fetchValue = .ok ((l.inBlock .blockMappingStart).extend (l.named name).cursor.next
      [⟨.key, l.cursor.line⟩, l.place (.scalar name true), (l.named name).place .value] false) := by
  obtain ⟨cursor, tokens, done, flowLevel, indent, outerIndents, mayBeKey, candidates⟩ := l
  obtain rfl : flowLevel = 0 := h.block
  obtain rfl : candidates = [] := h.settled
  by_cases outside : indent < cursor.column <;>
    simp [fetchValue, named, Lexer.inBlock, Lexer.opened, outside, Lexer.extend, place, push,
      indicator, Lexer.inFlow, openBlock?, insertIdx_length, Cursor.forward, pure, Except.pure]

/-- A key with its colon. -/
theorem Standing.leads_key (h : l.Standing) (allowed : l.mayBeKey = true) {name : String}
    (short : IsName name) {u : List Char} (rest : l.cursor.rest = name.toList ++ ':' :: u)
    (isolated : endsWord (u.headD '\x00') = true) (inside : l.indent ≤ l.cursor.column) :
    ∃ c more, l.Leads ((l.inBlock .blockMappingStart).extend c more false) ∧
      more.map (·.token) = [.key, .scalar name true, .value] ∧ c.rest = u ∧
      l.cursor.column < c.column := by
  have after := rest_named rest
  have column := (line_named rest short).2
  have meets : (l.named name).Meets := by
    rw [Meets, after]
    rintro _ ⟨⟩
    decide
  have settles : (l.named name).settle = .ok (l.named name) := by
    rw [Lexer.settle, skipByteOrderMark_eq (peek_ne_of_meets meets), skipToToken_meets meets]
    exact dropStale_named rest short
  have keyed (m : List Placed) := (h.inBlock .blockMappingStart).extend (l.named name).cursor.next m false
  have unwound : (l.named name).unwindTo (l.named name).cursor.column = l.named name :=
    unwindTo_of_le (l := l.named name) h.block (Int.le_trans inside (Int.ofNat_le.mpr column))
  have here := (congrArg fetchHere unwound).trans
    ((fetchHere_colon after isolated).trans (h.fetchValue_named name))
  refine ⟨(l.named name).cursor.next,
    [⟨.key, l.cursor.line⟩, l.place (.scalar name true), (l.named name).place .value],
    (h.leads_named rest short allowed isolated inside).trans (.of_fetch h.going ?_ ?_), rfl, ?_, ?_⟩
  · rw [fetch_eq, settles, ok_bind, meet_eq _ here (keyed _).going, (keyed _).dropStale]
  · show (l.named name).cursor.next.rest.length < _
    rw [Cursor.rest_next, after]
    exact Nat.lt_succ_self _
  · show (l.named name).cursor.next.rest = u
    rw [Cursor.rest_next, after]
    rfl
  · rw [Cursor.next, after]
    exact Nat.lt_succ_of_le column

end Lexer

/-! ### Trees -/

/-- What a text in a value is read back as. -/
def reread (text : String) : String := String.ofList (reading (styleOf text false) text.toList)

/-- The token of a tree without parts. -/
def leafToken : Tree → Token
  | .flag b => .scalar (if b then "true" else "false") true
  | .int n => .scalar (ofInt n) true
  | .text t => .scalar (reread t) (styleOf t false == .plain)
  | _ => .scalar "null" true

mutual

/-- The tokens of a tree. A list under a key has no block of its own. -/
def valueTokens : Tree → (underKey : Bool) → List Token
  | .list items, true => itemTokens items
  | .list items, false => .blockSequenceStart :: (itemTokens items ++ [.blockEnd])
  | .mapping entries, _ => .blockMappingStart :: (entryTokens entries ++ [.blockEnd])
  | t, _ => [leafToken t]

def itemTokens : List Tree → List Token
  | [] => []
  | item :: rest => .blockEntry :: (valueTokens item false ++ itemTokens rest)

def entryTokens : List (Tree × Tree) → List Token
  | [] => []
  | (key, value) :: rest => .key :: .scalar (key.text?.getD "") true :: .value ::
    (valueTokens value true ++ entryTokens rest)

end

/-! ### Beginnings -/

theorem begins_name {name : String} (short : IsName name) (u : List Char) :
    Begins (name.toList ++ u) := by
  obtain ⟨ch, letters, whole⟩ := List.exists_cons_of_ne_nil (styleOf_plain short.plain).2.1
  rw [whole]
  exact .name (short.chars ch (whole ▸ List.mem_cons_self)) _

theorem SpellsText.met {column : Nat} {style : Style} {t s : List Char} (fits : Fits style t)
    (spells : SpellsText column style t s) : ∃ ch v, s = ch :: v ∧ IsMet ch := by
  cases style with
  | plain =>
    obtain ⟨ch, v, rfl, met, -⟩ := spells.plain_head fits []
    exact ⟨ch, v, rfl, met⟩
  | single =>
    obtain ⟨inner, -, rfl⟩ := spells
    exact ⟨_, _, rfl, by decide⟩
  | double =>
    obtain ⟨inner, -, rfl⟩ := spells
    exact ⟨_, _, rfl, by decide⟩

/-- After a dash or a colon comes a space or the end of the line. -/
theorem Spells.head {t : Tree} {room column : Nat} {underKey : Bool} {s : List Char}
    (block : t.IsBlock room) (spells : Spells t column underKey s) :
    ∃ v, s = ' ' :: v ∨ underKey = true ∧ s = '\n' :: v := by
  cases t with
  | null | flag | int | text =>
    simp only [Spells] at spells
    obtain ⟨body, -, rfl⟩ := spells
    exact ⟨body, .inl rfl⟩
  | list items =>
    obtain ⟨nonempty, -⟩ := block
    cases underKey with
    | false =>
      obtain ⟨body, -, rfl⟩ := spells
      exact ⟨body, .inl rfl⟩
    | true =>
      obtain ⟨item, rest, rfl⟩ := List.exists_cons_of_ne_nil nonempty
      obtain ⟨body, more, -, -, rfl⟩ := spells
      exact ⟨_, .inr ⟨rfl, rfl⟩⟩
  | mapping entries =>
    obtain ⟨nonempty, -⟩ := block
    cases underKey with
    | false =>
      obtain ⟨body, -, rfl⟩ := spells
      exact ⟨body, .inl rfl⟩
    | true =>
      obtain ⟨entry, rest, rfl⟩ := List.exists_cons_of_ne_nil nonempty
      obtain ⟨body, more, -, -, rfl⟩ := spells
      exact ⟨_, .inr ⟨rfl, rfl⟩⟩
  | real | nan | tuple | set | bytes | date | moment | clock | cycle => cases block

theorem SpellsItems.head {items : List Tree} {room column : Nat} {s : List Char}
    (nonempty : items ≠ []) (block : AreBlocks items room) (spells : SpellsItems items column s) :
    ∃ v, s = newLine column ++ '-' :: ' ' :: v := by
  obtain ⟨item, rest, rfl⟩ := List.exists_cons_of_ne_nil nonempty
  obtain ⟨body, more, first, -, rfl⟩ := spells
  obtain ⟨v, rfl | ⟨keyed, -⟩⟩ := first.head block.1
  · exact ⟨_, rfl⟩
  · cases keyed

theorem SpellsEntries.head {entries : List (Tree × Tree)} {room column : Nat} {s : List Char}
    (nonempty : entries ≠ []) (block : HaveBlocks entries room)
    (spells : SpellsEntries entries column s) :
    ∃ name v, IsName name ∧ s = newLine column ++ (name.toList ++ v) := by
  obtain ⟨⟨key, value⟩, rest, rfl⟩ := List.exists_cons_of_ne_nil nonempty
  obtain ⟨⟨name, rfl, short⟩, -⟩ := block
  obtain ⟨body, more, -, -, rfl⟩ := spells
  exact ⟨name, _, short, rfl⟩

namespace Lexer
variable {l l' base : Lexer}

/-- These tokens come next in the blocks of `base`, and the text `u` after them begins at a column of
a new line. -/
def Yields (l base : Lexer) (expected : List Token) (u : List Char) (column : Nat) : Prop :=
  ∃ c more, l.Leads (base.extend c more true) ∧ more.map (·.token) = expected ∧ c.rest = u ∧
    c.column = column

theorem Yields.trans {expected expected' : List Token} {u v : List Char} {j k : Nat}
    (first : l.Yields base expected v j)
    (later : ∀ c more, c.rest = v → c.column = j →
      (base.extend c more true).Yields (base.extend c more true) expected' u k) :
    l.Yields base (expected ++ expected') u k := by
  obtain ⟨c, more, leads, tokens, rest, column⟩ := first
  obtain ⟨c', more', leads', tokens', rest', column'⟩ := later c more rest column
  rw [extend_extend] at leads'
  exact ⟨c', more ++ more', leads.trans leads', by rw [List.map_append, tokens, tokens'], rest',
    column'⟩

theorem Yields.before (expected : List Token) {expected' : List Token} {u : List Char} {k : Nat}
    {c : Cursor} {more : List Placed} {m : Bool} (first : l.Leads (base.extend c more m))
    (tokens : more.map (·.token) = expected)
    (later : (base.extend c more m).Yields (base.extend c more m) expected' u k) :
    l.Yields base (expected ++ expected') u k := by
  obtain ⟨c', more', leads, tokens', rest, column⟩ := later
  rw [extend_extend] at leads
  exact ⟨c', more ++ more', first.trans leads, by rw [List.map_append, tokens, tokens'], rest, column⟩

/-- A block with its tokens, up to a line that stands further out. -/
theorem Standing.yields_block (h : l.Standing) {token : Token} {expected : List Token}
    {u : List Char} {k : Nat} (begins : Begins u) (outside : k < l.cursor.column)
    (within : l.Yields (l.opened token) expected u k) :
    l.Yields l (token :: (expected ++ [.blockEnd])) u k := by
  obtain ⟨c, more, leads, tokens, rest, column⟩ := within
  have standing := (h.opened token).extend c more true
  have meets : ((l.opened token).extend c more true).Meets := fun ch head =>
    begins.head ch (rest ▸ head)
  have left : (c.column : Int) < l.cursor.column := by omega
  have closes := standing.leads_closed meets rfl left
  refine ⟨c, l.place token :: (more ++ [⟨.blockEnd, c.line⟩]), ?_, ?_, rest, column⟩
  · refine leads.trans ?_
    simpa [Lexer.closed, Lexer.opened, Lexer.extend, push, place] using closes
  · simp [tokens, place]

theorem Standing.yields_mapping (h : l.Standing) {expected : List Token} {u : List Char} {k : Nat}
    (begins : Begins u) (outside : k < l.cursor.column) (inside : l.indent < l.cursor.column)
    (within : l.Yields (l.inBlock .blockMappingStart) expected u k) :
    l.Yields l (.blockMappingStart :: (expected ++ [.blockEnd])) u k := by
  rw [Lexer.inBlock, if_pos inside] at within
  exact h.yields_block begins outside within

/-- Where a value may begin. -/
def Expects (l : Lexer) (column : Nat) : (underKey : Bool) → Prop
  | true => column < l.cursor.column
  | false => l.cursor.column = column + 1 ∧ l.mayBeKey = true

theorem Expects.inside {column : Nat} {underKey : Bool} (expects : l.Expects column underKey) :
    column < l.cursor.column := by
  cases underKey with
  | true => exact expects
  | false => exact expects.1 ▸ Nat.lt_succ_self column

/-- A lexer before a piece of a document, with the line after it. -/
structure Faces (l : Lexer) (s : List Char) (k : Nat) (u : List Char) : Prop where
  standing : l.Standing
  rest : l.cursor.rest = s ++ (newLine k ++ u)
  begins : Begins u

namespace Faces
variable {s u w : List Char} {k : Nat}

/-- A piece on the same line. -/
theorem space {ch : Char} (h : l.Faces (' ' :: ch :: w) k u) (met : IsMet ch) :
    l.Leads (l.extend l.cursor.next [] l.mayBeKey) ∧
      (l.extend l.cursor.next [] l.mayBeKey).Faces (ch :: w) k u ∧
      l.cursor.next.column = l.cursor.column + 1 := by
  refine ⟨h.standing.leads_space h.rest met, ⟨h.standing.extend _ _ _, ?_, h.begins⟩, ?_⟩
  · show l.cursor.next.rest = _
    rw [Cursor.rest_next, h.rest]
    rfl
  · rw [Cursor.next, h.rest]
    rfl

/-- A piece on a new line. -/
theorem newLine {column : Nat} (h : l.Faces (newLine column ++ w) k u)
    (begins : Begins (w ++ (Yaml.newLine k ++ u))) :
    l.Leads (l.extend (l.cursor.forward (column + 1)) [] true) ∧
      (l.extend (l.cursor.forward (column + 1)) [] true).Faces w k u ∧
      (l.cursor.forward (column + 1)).column = column := by
  have rest : l.cursor.rest = Yaml.newLine column ++ (w ++ (Yaml.newLine k ++ u)) := by
    rw [h.rest, List.append_assoc]
  have place := forward_newLine rest
  refine ⟨h.standing.leads_newLine rest begins, ⟨h.standing.extend _ _ _, ?_, h.begins⟩, ?_⟩
  · show (l.cursor.forward (column + 1)).rest = _
    rw [place]
  · rw [place]

theorem yields_leaf (h : l.Faces s k u) {column : Nat} (indented : l.indent = column)
    {underKey : Bool} (expects : l.Expects column underKey) {style : Style} {t : List Char}
    (fits : Fits style t) (spells : SpellsLeaf column style t s) (outside : k ≤ column) :
    l.Yields l [.scalar (String.ofList (reading style t)) (style == .plain)] u k := by
  obtain ⟨body, text, rfl⟩ := spells
  obtain ⟨ch, v, rfl, met⟩ := text.met fits
  obtain ⟨lead, within, column⟩ := h.space met
  have inside : l.indent < l.cursor.next.column := by
    have := expects.inside
    omega
  obtain ⟨last, leads, done, column⟩ :=
    within.standing.leads_text indented inside fits text h.begins outside within.rest
  exact Yields.before [] lead rfl ⟨last, _, leads, rfl, done, column⟩

end Faces

/-- Wherever a tree stands after a dash or a colon, its tokens are found there. -/
def ValueYields (t : Tree) : Prop :=
  ∀ {column k : Nat} {underKey : Bool} {l : Lexer} {s u : List Char}, Spells t column underKey s →
    l.Faces s k u → l.indent = column → l.Expects column underKey → k ≤ column →
      l.Yields l (valueTokens t underKey) u k

/-- Wherever items stand in a list that is open, their tokens are found from the dash of the first
one. -/
def ItemsYield (items : List Tree) : Prop :=
  ∀ {column k : Nat} {l : Lexer} {w u : List Char},
    SpellsItems items column (Yaml.newLine column ++ w) → l.Faces w k u → l.indent = column →
      l.cursor.column = column → l.mayBeKey = true → k ≤ column →
        l.Yields l (itemTokens items) u k

/-- Wherever the entries of a mapping stand, their tokens are found. The first key opens the mapping
unless it is open. -/
def EntriesYield (entries : List (Tree × Tree)) : Prop :=
  ∀ {column k : Nat} {l : Lexer} {w u : List Char},
    SpellsEntries entries column (Yaml.newLine column ++ w) → l.Faces w k u → l.indent ≤ column →
      l.cursor.column = column → l.mayBeKey = true → k ≤ column →
        l.Yields (l.inBlock .blockMappingStart) (entryTokens entries) u k

/-! #### Leaves -/

theorem valueYields_null : ValueYields .null := by
  intro column k underKey l s u spells faces indented expects outside
  simp only [Spells] at spells
  exact faces.yields_leaf indented expects null_fits spells outside

theorem valueYields_flag (b : Bool) : ValueYields (.flag b) := by
  intro column k underKey l s u spells faces indented expects outside
  simp only [Spells] at spells
  have leaf := faces.yields_leaf indented expects (flag_fits b) spells outside
  rw [reading, String.ofList_toList] at leaf
  exact leaf

theorem valueYields_int (n : Int) : ValueYields (.int n) := by
  intro column k underKey l s u spells faces indented expects outside
  simp only [Spells] at spells
  have leaf := faces.yields_leaf indented expects (ofInt_fits n) spells outside
  rw [reading, String.ofList_toList] at leaf
  exact leaf

theorem valueYields_text (t : String) : ValueYields (.text t) := by
  intro column k underKey l s u spells faces indented expects outside
  simp only [Spells] at spells
  exact faces.yields_leaf indented expects (fits_styleOf t false) spells outside

/-! #### Lists -/

section
variable {items : List Tree} {item : Tree} {room column k : Nat} {l : Lexer} {s u w : List Char}

/-- After a dash a list begins on the same line, and it is opened there. -/
theorem yields_list_afterDash (within : ItemsYield items) (nonempty : items ≠ [])
    (parts : AreBlocks items room) (spells : Spells (.list items) column false s)
    (faces : l.Faces s k u) (indented : l.indent = column) (expects : l.Expects column false)
    (outside : k ≤ column) : l.Yields l (valueTokens (.list items) false) u k := by
  obtain ⟨body, spells, rfl⟩ := spells
  obtain ⟨v, whole⟩ := spells.head nonempty parts
  obtain rfl := List.append_cancel_left whole
  obtain ⟨lead, here, further⟩ := faces.space (show IsMet '-' by decide)
  have stands : l.cursor.next.column = column + 2 := by rw [further, expects.1]
  have allowed : l.mayBeKey = true := expects.2
  let m := l.extend l.cursor.next [] l.mayBeKey
  have opens : m.Leads (m.opened .blockSequenceStart) :=
    here.standing.leads_sequence allowed here.rest (by
      show l.indent < (l.cursor.next.column : Int)
      omega)
  have inner : (m.opened .blockSequenceStart).Yields (m.opened .blockSequenceStart)
      (itemTokens items) u k :=
    within spells ⟨here.standing.opened _, here.rest, here.begins⟩ (congrArg Int.ofNat stands) stands
      allowed (by omega)
  obtain ⟨c, more, leads, result⟩ := inner
  have block := here.standing.yields_block faces.begins
    (by show k < l.cursor.next.column; omega) ⟨c, more, opens.trans leads, result⟩
  exact Yields.before [] lead rfl block

/-- Under a key a list goes on with the next line, and nothing opens it. -/
theorem yields_list_underKey (within : ItemsYield items) (nonempty : items ≠ [])
    (parts : AreBlocks items room) (spells : Spells (.list items) column true s)
    (faces : l.Faces s k u) (indented : l.indent = column) (outside : k ≤ column) :
    l.Yields l (valueTokens (.list items) true) u k := by
  rw [Spells] at spells
  obtain ⟨v, rfl⟩ := spells.head nonempty parts
  obtain ⟨lead, here, stands⟩ := faces.newLine (.dash _)
  exact Yields.before [] lead rfl (within spells here indented stands rfl outside)

theorem valueYields_list (within : ItemsYield items) (nonempty : items ≠ [])
    (parts : AreBlocks items room) : ValueYields (.list items) := by
  intro column k underKey l s u spells faces indented expects outside
  cases underKey with
  | false => exact yields_list_afterDash within nonempty parts spells faces indented expects outside
  | true => exact yields_list_underKey within nonempty parts spells faces indented outside

/-- The dash of an item. -/
theorem leads_dash (faces : l.Faces ('-' :: ' ' :: w) k u) (indented : l.indent = column)
    (stands : l.cursor.column = column) (allowed : l.mayBeKey = true) :
    l.Leads (l.extend l.cursor.next [l.place .blockEntry] true) ∧
      l.cursor.next.rest = ' ' :: w ++ (Yaml.newLine k ++ u) ∧
      (l.extend l.cursor.next [l.place .blockEntry] true).Expects column false := by
  refine ⟨faces.standing.leads_entry allowed faces.rest (by rw [indented, stands]), ?_, ?_, rfl⟩
  · rw [Cursor.rest_next, faces.rest]
    rfl
  · show l.cursor.next.column = _
    rw [Cursor.next, faces.rest, ← stands]
    rfl

theorem itemsYield_cons {rest : List Tree} (block : AreBlocks (item :: rest) room)
    (value : ValueYields item) (others : rest ≠ [] → ItemsYield rest) :
    ItemsYield (item :: rest) := by
  intro column k l w u spells faces indented stands allowed outside
  obtain ⟨body, more, first, later, whole⟩ := spells
  obtain rfl := List.append_cancel_left whole
  obtain ⟨v, rfl | ⟨keyed, -⟩⟩ := first.head block.1
  swap
  · cases keyed
  obtain ⟨entry, reached, expects⟩ := leads_dash faces indented stands allowed
  have standing := faces.standing.extend l.cursor.next [l.place .blockEntry] true
  have after : l.cursor.next.rest = (' ' :: v) ++ (more ++ (Yaml.newLine k ++ u)) :=
    reached.trans (List.append_assoc (' ' :: v) more _)
  cases rest with
  | nil =>
    obtain rfl : more = [] := later
    rw [itemTokens, itemTokens, List.append_nil]
    exact Yields.before [.blockEntry] entry rfl
      (value first ⟨standing, after, faces.begins⟩ indented expects outside)
  | cons next rest =>
    obtain ⟨v', rfl⟩ := later.head (List.cons_ne_nil _ _) block.2
    have found := value first
      ⟨standing, after.trans (by rw [List.append_assoc]; rfl), .dash (v' ++ (Yaml.newLine k ++ u))⟩
      indented expects (Nat.le_refl column)
    refine Yields.trans (Yields.before [.blockEntry] entry rfl found) fun c more reached column => ?_
    exact others (List.cons_ne_nil _ _) later
      ⟨faces.standing.extend c more true, reached, faces.begins⟩ indented column rfl outside

end

/-! #### Mappings -/

section
variable {entries : List (Tree × Tree)} {room column k : Nat} {l : Lexer} {s u w : List Char}

/-- After a dash a mapping begins on the same line. -/
theorem yields_mapping_afterDash (within : EntriesYield entries) (nonempty : entries ≠ [])
    (parts : HaveBlocks entries room) (spells : Spells (.mapping entries) column false s)
    (faces : l.Faces s k u) (indented : l.indent = column) (expects : l.Expects column false)
    (outside : k ≤ column) : l.Yields l (valueTokens (.mapping entries) false) u k := by
  obtain ⟨body, spells, rfl⟩ := spells
  obtain ⟨name, v, short, whole⟩ := spells.head nonempty parts
  obtain rfl := List.append_cancel_left whole
  obtain ⟨ch, letters, named⟩ := List.exists_cons_of_ne_nil (styleOf_plain short.plain).2.1
  rw [named] at faces spells
  have met : IsMet ch := (begins_name short []).head ch (by rw [named]; rfl)
  obtain ⟨lead, here, further⟩ := faces.space met
  have stands : l.cursor.next.column = column + 2 := by rw [further, expects.1]
  have inner := within spells here (by show l.indent ≤ _; omega) stands expects.2 (by omega)
  exact Yields.before [] lead rfl (here.standing.yields_mapping faces.begins
    (by show k < l.cursor.next.column; omega)
    (by show l.indent < (l.cursor.next.column : Int); omega) inner)

/-- Under a key a mapping begins on the next line. -/
theorem yields_mapping_underKey (within : EntriesYield entries) (nonempty : entries ≠ [])
    (parts : HaveBlocks entries room) (spells : Spells (.mapping entries) column true s)
    (faces : l.Faces s k u) (indented : l.indent = column) (outside : k ≤ column) :
    l.Yields l (valueTokens (.mapping entries) true) u k := by
  rw [Spells] at spells
  obtain ⟨name, v, short, rfl⟩ := spells.head nonempty parts
  obtain ⟨lead, here, stands⟩ := faces.newLine (by
    rw [List.append_assoc]
    exact begins_name short _)
  have inner := within spells here (by show l.indent ≤ _; omega) stands rfl (by omega)
  exact Yields.before [] lead rfl (here.standing.yields_mapping faces.begins
    (stands.symm ▸ by omega)
    (by show l.indent < ((l.cursor.forward _).column : Int); omega) inner)

theorem valueYields_mapping (within : EntriesYield entries) (nonempty : entries ≠ [])
    (parts : HaveBlocks entries room) : ValueYields (.mapping entries) := by
  intro column k underKey l s u spells faces indented expects outside
  cases underKey with
  | false =>
    exact yields_mapping_afterDash within nonempty parts spells faces indented expects outside
  | true => exact yields_mapping_underKey within nonempty parts spells faces indented outside

theorem entriesYield_cons {name : String} {value : Tree} {rest : List (Tree × Tree)}
    (short : IsName name) (block : value.IsBlock room) (others : HaveBlocks rest room)
    (first : ValueYields value) (further : rest ≠ [] → EntriesYield rest) :
    EntriesYield ((.text name, value) :: rest) := by
  intro column k l w u spells faces within stands allowed outside
  obtain ⟨body, more, spelled, later, whole⟩ := spells
  obtain rfl := List.append_cancel_left whole
  have keyed : l.cursor.rest = name.toList ++ ':' :: (body ++ (more ++ (Yaml.newLine k ++ u))) := by
    rw [faces.rest]
    simp [Tree.text?]
  have isolated : endsWord ((body ++ (more ++ (Yaml.newLine k ++ u))).headD '\x00') = true := by
    obtain ⟨v, rfl | ⟨-, rfl⟩⟩ := spelled.head block
    · rfl
    · rfl
  obtain ⟨c, tokens, leads, known, after, beyond⟩ :=
    faces.standing.leads_key allowed short keyed isolated (by omega)
  have standing := (faces.standing.inBlock .blockMappingStart).extend c tokens false
  have indented : (l.inBlock .blockMappingStart).indent = column := by
    rw [indent_inBlock (by omega), stands]
  have expects : ((l.inBlock .blockMappingStart).extend c tokens false).Expects column true :=
    stands ▸ beyond
  cases rest with
  | nil =>
    obtain rfl : more = [] := later
    rw [entryTokens, entryTokens, List.append_nil]
    exact Yields.before _ leads known
      (first spelled ⟨standing, after, faces.begins⟩ indented expects outside)
  | cons next rest =>
    obtain ⟨name', v, short', rfl⟩ := later.head (List.cons_ne_nil _ _) others
    have begins : Begins (name'.toList ++ v ++ (Yaml.newLine k ++ u)) := by
      rw [List.append_assoc]
      exact begins_name short' _
    have found := first spelled ⟨standing, after.trans (by rw [List.append_assoc]), begins⟩
      indented expects (Nat.le_refl column)
    refine Yields.trans (Yields.before _ leads known found) fun c more reached column => ?_
    have inside : ((l.inBlock .blockMappingStart).extend c more true).inBlock .blockMappingStart =
        (l.inBlock .blockMappingStart).extend c more true :=
      if_neg (Int.not_lt.mpr (Int.le_of_eq ((congrArg Int.ofNat column).trans indented.symm)))
    have entries := further (List.cons_ne_nil _ _) later
      ⟨(faces.standing.inBlock .blockMappingStart).extend c more true, reached, faces.begins⟩
      (Int.le_of_eq indented) column rfl outside
    rwa [inside] at entries

end

/-! #### Trees -/

mutual

theorem valueYields : ∀ (t : Tree) {room : Nat}, t.IsBlock room → ValueYields t
  | .null, _, _ => valueYields_null
  | .flag b, _, _ => valueYields_flag b
  | .int n, _, _ => valueYields_int n
  | .text t, _, _ => valueYields_text t
  | .list items, _, ⟨nonempty, _, parts⟩ =>
    valueYields_list (itemsYield items nonempty parts) nonempty parts
  | .mapping entries, _, ⟨nonempty, _, parts, _⟩ =>
    valueYields_mapping (entriesYield entries nonempty parts) nonempty parts

theorem itemsYield : ∀ (items : List Tree) {room : Nat}, items ≠ [] → AreBlocks items room →
    ItemsYield items
  | [], _, nonempty, _ => absurd rfl nonempty
  | item :: rest, _, _, block => itemsYield_cons block (valueYields item block.1)
      fun nonempty => itemsYield rest nonempty block.2

theorem entriesYield : ∀ (entries : List (Tree × Tree)) {room : Nat}, entries ≠ [] →
    HaveBlocks entries room → EntriesYield entries
  | [], _, nonempty, _ => absurd rfl nonempty
  | (_, value) :: rest, _, _, ⟨⟨_, same, short⟩, block, others⟩ => by
    subst same
    exact entriesYield_cons short block others (valueYields value block)
      fun nonempty => entriesYield rest nonempty others

end

/-! ### Documents -/

/-- At the end of the text the mapping is closed that is the whole document. -/
theorem Standing.fetch_end (h : l.Standing) (rest : l.cursor.rest = []) (indented : l.indent = 0)
    (outer : l.outerIndents = [-1]) (column : l.cursor.column = 0) :
    ∃ last, l.fetch = .ok last ∧ last.done = true ∧
      last.tokens = l.tokens ++ [l.place .blockEnd, l.place .streamEnd] := by
  have meets : l.Meets := by
    rw [Meets, rest]
    simp
  have unwound : l.unwindTo (-1) = l.closed (-1) [] := by
    have flow : (l.push .blockEnd).inFlow = false := h.inFlow
    rw [unwindTo, indented, outer, unwind, h.inFlow, if_neg Bool.false_ne_true, if_neg (by decide),
      unwind, flow, if_neg Bool.false_ne_true, if_pos (Int.le_refl _)]
    rfl
  let last : Lexer := { (l.closed (-1) []).push .streamEnd with
    mayBeKey := false, candidates := [], done := true }
  have here : (l.unwindTo l.cursor.column).fetchHere = .ok last := by
    rw [unwindTo_of_le h.block (by omega), fetchHere_end rest, fetchStreamEnd, unwound,
      (h.closed _ _).dropCandidate]
    rfl
  refine ⟨last, ?_, rfl, List.append_assoc _ _ _⟩
  rw [h.fetch meets, meet, here]
  rfl

end Lexer

/-- The tokens of a document that is a mapping. -/
theorem tokens_document {entries : List (Tree × Tree)} (nonempty : entries ≠ []) {room : Nat}
    (block : HaveBlocks entries room) {s : List Char}
    (spells : SpellsEntries entries 0 (newLine 0 ++ s)) :
    ∃ placed, tokens (s ++ newLine 0) = (placed, none) ∧ placed.map (·.token) =
      .blockMappingStart :: (entryTokens entries ++ [.blockEnd, .streamEnd]) := by
  have faces : (Lexer.start (s ++ newLine 0)).Faces s 0 [] :=
    ⟨⟨rfl, rfl, rfl⟩, by rw [List.append_nil]; rfl, .ended⟩
  have entire := Lexer.entriesYield entries nonempty block spells faces
    (by show (-1 : Int) ≤ 0; decide) rfl rfl (Nat.le_refl 0)
  have opens : (Lexer.start (s ++ newLine 0)).inBlock .blockMappingStart =
      (Lexer.start (s ++ newLine 0)).opened .blockMappingStart :=
    if_pos (by show (-1 : Int) < 0; decide)
  rw [opens] at entire
  obtain ⟨c, more, ⟨n, short, runs⟩, known, rest, column⟩ := entire
  have standing := (faces.standing.opened .blockMappingStart).extend c more true
  obtain ⟨last, fetched, done, all⟩ := standing.fetch_end rest rfl rfl column
  have ends (fuel : Nat) : Lexer.run (fuel + 2)
      (((Lexer.start (s ++ newLine 0)).opened .blockMappingStart).extend c more true) =
        (last.tokens, none) := by
    rw [Lexer.run_succ _ standing.going, fetched]
    dsimp only
    rw [Lexer.run, done, if_pos rfl]
  have enough : (s ++ newLine 0).length + 2 = ((s ++ newLine 0).length - n) + 2 + n := by
    have : n ≤ (s ++ newLine 0).length := Nat.le_trans (Nat.le_add_right _ _) short
    omega
  refine ⟨last.tokens, ?_, ?_⟩
  · rw [tokens, enough]
    exact runs _ _ (Nat.succ_pos _) (ends _)
  · rw [all]
    simp [Lexer.extend, Lexer.opened, Lexer.push, Lexer.place, Lexer.start, known]

end SessionPlan.Yaml
