import SessionPlan.Proofs.Yaml.Integers

/-! Trees in blocks: what the writer makes of a tree of texts, integers, flags and nulls, in lists
and mappings that are not empty. Items and entries begin lines of their own, but the first one in an
item stands on the item's line. -/
namespace SessionPlan
open SessionPlan.Text

namespace Yaml

/-- A short word that is a plain key. -/
structure IsName (name : String) : Prop where
  plain : styleOf name true = .plain
  chars : ∀ c ∈ name.toList, c ∈ nameChars
  short : name.toList.length ≤ 1024

/-- Whether a text is such a word. -/
def isNameText (name : String) : Bool :=
  styleOf name true == .plain && name.toList.all (· ∈ nameChars) && decide (name.toList.length ≤ 1024)

theorem isNameText_iff {name : String} : isNameText name = true ↔ IsName name := by
  simp only [isNameText, Bool.and_eq_true, beq_iff_eq, List.all_eq_true, decide_eq_true_eq]
  exact ⟨fun ⟨⟨plain, chars⟩, short⟩ => ⟨plain, chars, short⟩,
    fun named => ⟨⟨named.plain, named.chars⟩, named.short⟩⟩

end Yaml

namespace Tree
open Yaml

mutual

/-- Trees that stand in blocks with names for keys, `room` blocks deep at most. -/
def IsBlock : Tree → (room : Nat) → Prop
  | .null, _ | .flag _, _ | .int _, _ | .text _, _ => True
  | .list items, room => items ≠ [] ∧ 0 < room ∧ AreBlocks items (room - 1)
  | .mapping entries, room => entries ≠ [] ∧ 0 < room ∧ HaveBlocks entries (room - 1) ∧
    entries.Pairwise fun first later => same first.1 later.1 = false
  | _, _ => False

def AreBlocks : List Tree → (room : Nat) → Prop
  | [], _ => True
  | x :: xs, room => IsBlock x room ∧ AreBlocks xs room

def HaveBlocks : List (Tree × Tree) → (room : Nat) → Prop
  | [], _ => True
  | (key, value) :: rest, room =>
    (∃ name, key = .text name ∧ IsName name) ∧ IsBlock value room ∧ HaveBlocks rest room

end
end Tree

namespace Yaml
open SessionPlan.Tree

/-! ### Spellings of trees -/

/-- A scalar in a block, after its space. -/
def SpellsLeaf (column : Nat) (style : Style) (t s : List Char) : Prop :=
  ∃ body, SpellsText (column + 2) style t body ∧ s = ' ' :: body

mutual

/-- A tree in a block at `column`, after the dash or the colon. -/
def Spells : Tree → (column : Nat) → (underKey : Bool) → List Char → Prop
  | .null, column, _, s => SpellsLeaf column .plain "null".toList s
  | .flag b, column, _, s => SpellsLeaf column .plain (if b then "true" else "false").toList s
  | .int n, column, _, s => SpellsLeaf column .plain (ofInt n).toList s
  | .text t, column, _, s => SpellsLeaf column (styleOf t false) t.toList s
  | .list items, column, true, s => SpellsItems items column s
  | .list items, column, false, s =>
    ∃ body, SpellsItems items (column + 2) (newLine (column + 2) ++ body) ∧ s = ' ' :: body
  | .mapping entries, column, true, s => SpellsEntries entries (column + 2) s
  | .mapping entries, column, false, s =>
    ∃ body, SpellsEntries entries (column + 2) (newLine (column + 2) ++ body) ∧ s = ' ' :: body
  | _, _, _, _ => False

def SpellsItems : List Tree → (column : Nat) → List Char → Prop
  | [], _, s => s = []
  | item :: rest, column, s => ∃ body more, Spells item column false body ∧
    SpellsItems rest column more ∧ s = newLine column ++ '-' :: (body ++ more)

def SpellsEntries : List (Tree × Tree) → (column : Nat) → List Char → Prop
  | [], _, s => s = []
  | (key, value) :: rest, column, s => ∃ body more, Spells value column true body ∧
    SpellsEntries rest column more ∧
    s = newLine column ++ ((key.text?.getD "").toList ++ ':' :: (body ++ more))

end

/-! ### Writing trees -/

theorem Page.stands_of_busy {p : Page} (indent : Nat) (busy : p.Busy indent) :
    (p.indentTo indent).StandsAt indent ∧ p.Adds (p.indentTo indent) (newLine indent) := by
  rw [indentTo_busy busy]
  exact ⟨⟨rfl, rfl, rfl⟩, rfl⟩

/-- A block in an item begins after the dash and a space. -/
theorem Page.stands_after_dash {p : Page} {indent : Nat} (bare : p.bare = true)
    (before : p.column = indent + 1) :
    (p.indentTo (indent + 2)).StandsAt (indent + 2) ∧ p.Adds (p.indentTo (indent + 2)) [' '] := by
  rw [indentTo_bare bare (by omega), show indent + 2 - p.column = 1 by omega]
  exact ⟨⟨rfl, rfl, rfl⟩, rfl⟩

theorem writeItems_indentTo {indent : Nat} {items : List Tree} (nonempty : items ≠ []) {p : Page}
    (stands : (p.indentTo indent).StandsAt indent) :
    writeItems indent items p = writeItems indent items (p.indentTo indent) := by
  cases items with
  | nil => exact absurd rfl nonempty
  | cons item rest => rw [writeItems, writeItems, Page.indentTo_standing stands]

theorem writeEntries_indentTo {indent : Nat} {entries : List (Tree × Tree)}
    (nonempty : entries ≠ []) {p : Page} (stands : (p.indentTo indent).StandsAt indent) :
    writeEntries indent entries p = writeEntries indent entries (p.indentTo indent) := by
  cases entries with
  | nil => exact absurd rfl nonempty
  | cons entry rest => rw [writeEntries, writeEntries, Page.indentTo_standing stands]

theorem plainRuns_unsplit (indent : Nat) (rs : List (RunKind × List Char)) {p : Page}
    (filled : p.Filled) : p.Adds (plainRuns false indent rs p) (rs.flatMap (·.2)) ∧
      (plainRuns false indent rs p).Filled := by
  induction rs generalizing p with
  | nil => exact ⟨.refl p, filled⟩
  | cons r rs ih =>
    obtain ⟨adds, filled⟩ := ih (p := p.put r.2) filled
    rw [plainRuns, breaksAt, if_neg (by simp), List.flatMap_cons]
    exact ⟨(Page.adds_put p r.2).trans adds, filled⟩

/-- A key is written as it is, with its colon. -/
theorem writeKey_adds {name : String} (named : IsName name) {p : Page} {indent : Nat}
    (stands : p.StandsAt indent) :
    p.Adds ((writeScalar true (indent + 2) (.text name) p).indicator [':'] false false false)
        (name.toList ++ [':']) ∧
      ((writeScalar true (indent + 2) (.text name) p).indicator [':'] false false false).Filled := by
  have nonempty := (styleOf_plain named.plain).2.1
  obtain ⟨key, filled⟩ := plainRuns_unsplit (indent + 2) (runs name.toList)
    (p := { p with spaced := false, bare := false }) ⟨rfl, rfl⟩
  have written : writeScalar true (indent + 2) (.text name) p = plainRuns false (indent + 2)
      (runs name.toList) { p with spaced := false, bare := false } := by
    show writeText name true (indent + 2) p = _
    rw [writeText, named.plain]
    show writePlain name.toList false (indent + 2) p = _
    rw [writePlain, if_neg (by simpa using nonempty), stands.2.1]
    rfl
  rw [flatten_runs] at key
  rw [written]
  exact ⟨Page.Adds.trans key (Page.adds_indicator _ _ _ _), rfl, Bool.and_false _⟩

/-- The page before a value, after its dash or its colon. -/
def Page.Awaits (p : Page) (column : Nat) : (underKey : Bool) → Prop
  | true => p.bare = false ∧ p.spaced = false
  | false => p.bare = true ∧ p.spaced = false ∧ p.column = column + 1

theorem Page.Awaits.spaced {p : Page} {column : Nat} {underKey : Bool}
    (awaits : p.Awaits column underKey) : p.spaced = false := by
  cases underKey with
  | true => exact awaits.2
  | false => exact awaits.2.1

/-- Wherever a tree is written, at most so many blocks deep, a spelling of it is added. -/
def ValueWritten (t : Tree) (room : Nat) : Prop :=
  ∀ {column : Nat} (underKey : Bool) {p : Page}, column + 2 * room + 2 < width →
    p.Awaits column underKey → ∃ s, p.Adds (write (some column) underKey t p) s ∧
      Spells t column underKey s ∧ (write (some column) underKey t p).Filled

/-- Wherever items are written, from where the first one stands, a spelling of them is added. -/
def ItemsWritten (items : List Tree) (room : Nat) : Prop :=
  ∀ {column : Nat} {p : Page}, column + 2 * room + 2 < width → p.StandsAt column →
    ∃ s, p.Adds (writeItems column items p) s ∧ SpellsItems items column (newLine column ++ s) ∧
      (writeItems column items p).Filled

def EntriesWritten (entries : List (Tree × Tree)) (room : Nat) : Prop :=
  ∀ {column : Nat} {p : Page}, column + 2 * room + 2 < width → p.StandsAt column →
    ∃ s, p.Adds (writeEntries column entries p) s ∧
      SpellsEntries entries column (newLine column ++ s) ∧ (writeEntries column entries p).Filled

theorem writeLeaf_spells {column : Nat} {t : List Char} (nonempty : t ≠ []) {underKey : Bool}
    {p : Page} (awaits : p.Awaits column underKey) :
    ∃ s, p.Adds (writePlain t (!false) (scalarIndent (some column)) p) s ∧
      SpellsLeaf column .plain t s ∧
      (writePlain t (!false) (scalarIndent (some column)) p).Filled := by
  obtain ⟨s, adds, spells, filled⟩ :=
    writePlain_spells (!false) (column + 2) nonempty awaits.spaced
  exact ⟨_, adds, ⟨s, spells, rfl⟩, filled⟩

theorem valueWritten_null (room : Nat) : ValueWritten .null room := by
  intro column underKey p narrow awaits
  simp only [Spells]
  exact writeLeaf_spells (by decide) awaits

theorem valueWritten_flag (b : Bool) (room : Nat) : ValueWritten (.flag b) room := by
  intro column underKey p narrow awaits
  simp only [Spells]
  exact writeLeaf_spells (by cases b <;> decide) awaits

theorem valueWritten_int (n : Int) (room : Nat) : ValueWritten (.int n) room := by
  intro column underKey p narrow awaits
  simp only [Spells]
  exact writeLeaf_spells (ofInt_toList_ne_nil n) awaits

theorem valueWritten_text (t : String) (room : Nat) : ValueWritten (.text t) room := by
  intro column underKey p narrow awaits
  simp only [Spells]
  obtain ⟨s, adds, spells, filled⟩ := writeText_spells t (column + 2) (by omega) awaits.spaced
  exact ⟨_, adds, ⟨s, spells, rfl⟩, filled⟩

/-- A list begins at the column of its key, or two columns further after a dash. -/
theorem valueWritten_list {items : List Tree} {room : Nat} (nonempty : items ≠ [])
    (deep : 0 < room) (within : ItemsWritten items (room - 1)) :
    ValueWritten (.list items) room := by
  intro column underKey p narrow awaits
  rw [write, if_neg (by simpa using nonempty)]
  cases underKey with
  | true =>
    obtain ⟨stands, lead⟩ := Page.stands_of_busy column (.inl awaits.1)
    obtain ⟨s, adds, spells, filled⟩ := within (by omega) stands
    rw [awaits.1]
    show ∃ s, p.Adds (writeItems column items p) s ∧ _ ∧ (writeItems column items p).Filled
    rw [writeItems_indentTo nonempty stands]
    refine ⟨_, lead.trans adds, ?_, filled⟩
    rw [Spells]
    exact spells
  | false =>
    obtain ⟨stands, lead⟩ := Page.stands_after_dash awaits.1 awaits.2.2
    obtain ⟨s, adds, spells, filled⟩ := within (by omega) stands
    show ∃ s, p.Adds (writeItems (column + 2) items p) s ∧ _ ∧
      (writeItems (column + 2) items p).Filled
    rw [writeItems_indentTo nonempty stands]
    refine ⟨_, lead.trans adds, ?_, filled⟩
    rw [Spells]
    exact ⟨s, spells, rfl⟩

/-- A mapping begins two columns further, on a new line under a key and on the same one after a
dash. -/
theorem valueWritten_mapping {entries : List (Tree × Tree)} {room : Nat} (nonempty : entries ≠ [])
    (deep : 0 < room) (within : EntriesWritten entries (room - 1)) :
    ValueWritten (.mapping entries) room := by
  intro column underKey p narrow awaits
  rw [write, if_neg (by simpa using nonempty)]
  show ∃ s, p.Adds (writeEntries (column + 2) entries p) s ∧ _ ∧
    (writeEntries (column + 2) entries p).Filled
  cases underKey with
  | true =>
    obtain ⟨stands, lead⟩ := Page.stands_of_busy (column + 2) (.inl awaits.1)
    obtain ⟨s, adds, spells, filled⟩ := within (by omega) stands
    rw [writeEntries_indentTo nonempty stands]
    refine ⟨_, lead.trans adds, ?_, filled⟩
    rw [Spells]
    exact spells
  | false =>
    obtain ⟨stands, lead⟩ := Page.stands_after_dash awaits.1 awaits.2.2
    obtain ⟨s, adds, spells, filled⟩ := within (by omega) stands
    rw [writeEntries_indentTo nonempty stands]
    refine ⟨_, lead.trans adds, ?_, filled⟩
    rw [Spells]
    exact ⟨s, spells, rfl⟩

theorem itemsWritten_cons {item : Tree} {rest : List Tree} {room : Nat}
    (first : ValueWritten item room) (others : rest ≠ [] → ItemsWritten rest room) :
    ItemsWritten (item :: rest) room := by
  intro column p narrow stands
  have dashed : (p.indicator ['-'] true false true).Awaits column false := by
    simp [Page.indicator, Page.Awaits, Page.put, stands.1, stands.2.1, stands.2.2]
  have dash : p.Adds (p.indicator ['-'] true false true) ['-'] := by
    simp [Page.indicator, Page.Adds, Page.put, stands.2.1]
  obtain ⟨s, adds, spells, filled⟩ := first false narrow dashed
  rw [writeItems, Page.indentTo_standing stands]
  cases rest with
  | nil =>
    refine ⟨_, dash.trans adds, ⟨s, [], spells, rfl, ?_⟩, filled⟩
    rw [List.append_nil]
    rfl
  | cons next rest =>
    obtain ⟨stands', lead⟩ := Page.stands_of_busy column (.inl filled.2)
    obtain ⟨more, adds', spells', filled'⟩ := others (List.cons_ne_nil _ _) narrow stands'
    rw [writeItems_indentTo (List.cons_ne_nil _ _) stands']
    exact ⟨_, (dash.trans adds).trans (lead.trans adds'), ⟨s, _, spells, spells', by simp⟩, filled'⟩

theorem entriesWritten_cons {name : String} {value : Tree} {rest : List (Tree × Tree)} {room : Nat}
    (named : IsName name) (first : ValueWritten value room)
    (others : rest ≠ [] → EntriesWritten rest room) :
    EntriesWritten ((.text name, value) :: rest) room := by
  intro column p narrow stands
  obtain ⟨key, keyed⟩ := writeKey_adds named stands
  obtain ⟨s, adds, spells, filled⟩ := first true narrow ⟨keyed.2, keyed.1⟩
  rw [writeEntries, Page.indentTo_standing stands]
  cases rest with
  | nil =>
    refine ⟨_, key.trans adds, ⟨s, [], spells, rfl, ?_⟩, filled⟩
    simp [Tree.text?]
  | cons next rest =>
    obtain ⟨stands', lead⟩ := Page.stands_of_busy column (.inl filled.2)
    obtain ⟨more, adds', spells', filled'⟩ := others (List.cons_ne_nil _ _) narrow stands'
    rw [writeEntries_indentTo (List.cons_ne_nil _ _) stands']
    exact ⟨_, (key.trans adds).trans (lead.trans adds'),
      ⟨s, _, spells, spells', by simp [Tree.text?]⟩, filled'⟩

mutual

/-- What is written of a tree is one of its spellings. -/
theorem valueWritten : ∀ (t : Tree) {room : Nat}, t.IsBlock room → ValueWritten t room
  | .null, room, _ => valueWritten_null room
  | .flag b, room, _ => valueWritten_flag b room
  | .int n, room, _ => valueWritten_int n room
  | .text t, room, _ => valueWritten_text t room
  | .list items, _, ⟨nonempty, deep, parts⟩ =>
    valueWritten_list nonempty deep (itemsWritten items nonempty parts)
  | .mapping entries, _, ⟨nonempty, deep, parts, _⟩ =>
    valueWritten_mapping nonempty deep (entriesWritten entries nonempty parts)

theorem itemsWritten : ∀ (items : List Tree) {room : Nat}, items ≠ [] → AreBlocks items room →
    ItemsWritten items room
  | [], _, nonempty, _ => absurd rfl nonempty
  | item :: rest, _, _, block => itemsWritten_cons (valueWritten item block.1)
      fun nonempty => itemsWritten rest nonempty block.2

theorem entriesWritten : ∀ (entries : List (Tree × Tree)) {room : Nat}, entries ≠ [] →
    HaveBlocks entries room → EntriesWritten entries room
  | [], _, nonempty, _ => absurd rfl nonempty
  | (_, value) :: rest, _, _, ⟨⟨_, same, named⟩, block, others⟩ => by
    subst same
    exact entriesWritten_cons named (valueWritten value block)
      fun nonempty => entriesWritten rest nonempty others

end

/-! ### Characters of spellings -/

theorem null_fits : Fits .plain "null".toList := ⟨by decide, by decide⟩

theorem flag_fits (b : Bool) : Fits .plain (if b then "true" else "false").toList := by
  cases b <;> exact ⟨by decide, by decide⟩

theorem SpellsLeaf.accepted {column : Nat} {style : Style} {t s : List Char} (fits : Fits style t)
    (spells : SpellsLeaf column style t s) : AreAccepted s := by
  obtain ⟨body, text, rfl⟩ := spells
  exact areAccepted_cons.mpr ⟨by decide, text.accepted fits⟩

theorem areAccepted_name {name : String} (named : IsName name) : AreAccepted name.toList := by
  have table : ∀ c ∈ nameChars, isAccepted c = true := List.all_iff_forall_prop.mp (by decide)
  exact fun c member => table c (named.chars c member)

mutual

theorem Spells.accepted : ∀ {t : Tree} {room column : Nat} {underKey : Bool} {s : List Char},
    t.IsBlock room → Spells t column underKey s → AreAccepted s
  | .null, _, _, _, _, _, spells => by
    simp only [Spells] at spells
    exact spells.accepted null_fits
  | .flag b, _, _, _, _, _, spells => by
    simp only [Spells] at spells
    exact spells.accepted (flag_fits b)
  | .int n, _, _, _, _, _, spells => by
    simp only [Spells] at spells
    exact spells.accepted (ofInt_fits n)
  | .text t, _, _, _, _, _, spells => by
    simp only [Spells] at spells
    exact spells.accepted (fits_styleOf t false)
  | .list items, _, _, true, _, block, spells => by
    rw [Spells] at spells
    exact SpellsItems.accepted block.2.2 spells
  | .list items, _, _, false, _, block, spells => by
    rw [Spells] at spells
    obtain ⟨body, spells, rfl⟩ := spells
    have whole := SpellsItems.accepted block.2.2 spells
    exact areAccepted_cons.mpr ⟨by decide, (areAccepted_append.mp whole).2⟩
  | .mapping entries, _, _, true, _, block, spells => by
    rw [Spells] at spells
    exact SpellsEntries.accepted block.2.2.1 spells
  | .mapping entries, _, _, false, _, block, spells => by
    rw [Spells] at spells
    obtain ⟨body, spells, rfl⟩ := spells
    have whole := SpellsEntries.accepted block.2.2.1 spells
    exact areAccepted_cons.mpr ⟨by decide, (areAccepted_append.mp whole).2⟩

theorem SpellsItems.accepted : ∀ {items : List Tree} {room column : Nat} {s : List Char},
    AreBlocks items room → SpellsItems items column s → AreAccepted s
  | [], _, _, _, _, spells => by
    rw [spells]
    simp [AreAccepted]
  | item :: rest, _, column, _, block, spells => by
    obtain ⟨body, more, first, later, rfl⟩ := spells
    refine areAccepted_append.mpr ⟨areAccepted_newLine column, ?_⟩
    exact areAccepted_cons.mpr ⟨by decide, areAccepted_append.mpr
      ⟨Spells.accepted block.1 first, SpellsItems.accepted block.2 later⟩⟩

theorem SpellsEntries.accepted : ∀ {entries : List (Tree × Tree)} {room column : Nat}
    {s : List Char}, HaveBlocks entries room → SpellsEntries entries column s → AreAccepted s
  | [], _, _, _, _, spells => by
    rw [spells]
    simp [AreAccepted]
  | (key, value) :: rest, _, column, _, block, spells => by
    obtain ⟨⟨name, rfl, named⟩, block, rests⟩ := block
    obtain ⟨body, more, first, later, rfl⟩ := spells
    refine areAccepted_append.mpr ⟨areAccepted_newLine column, ?_⟩
    refine areAccepted_append.mpr ⟨areAccepted_name named, ?_⟩
    exact areAccepted_cons.mpr ⟨by decide, areAccepted_append.mpr
      ⟨Spells.accepted block first, SpellsEntries.accepted rests later⟩⟩

end

/-! ### Whole documents -/

/-- The text of a mapping that is a whole document. -/
theorem documentText_spells {entries : List (Tree × Tree)} {room : Nat}
    (block : (Tree.mapping entries).IsBlock room) (narrow : 2 * room + 2 < width) :
    ∃ s, (documentText (.mapping entries)).toList = s ++ newLine 0 ∧
      SpellsEntries entries 0 (newLine 0 ++ s) := by
  rw [IsBlock] at block
  obtain ⟨nonempty, deep, parts, -⟩ := block
  have begun : Page.empty.StandsAt 0 := ⟨rfl, rfl, rfl⟩
  obtain ⟨s, adds, spells, filled⟩ :=
    entriesWritten entries nonempty parts (by omega) begun
  refine ⟨s, ?_, spells⟩
  have ended := adds.trans (Page.stands_of_busy 0 (.inl filled.2)).2
  rw [documentText, write, if_neg (by simpa using nonempty), Page.text, String.toList_ofList]
  rw [Page.Adds] at ended
  show ((writeEntries 0 entries .empty).indentTo 0).written.reverse = _
  rw [ended]
  simp [Page.empty]

end Yaml
end SessionPlan
