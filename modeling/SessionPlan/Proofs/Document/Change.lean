import SessionPlan.Proofs.Document.Mentions
import SessionPlan.Proofs.Document.Written

/-! Changes of an entry that are said pair by pair. However the entry is written, the changed entry
is laid out as the changed pairs. -/
namespace SessionPlan.Document

/-- What becomes of the pair at each place. It may be left out. -/
abbrev Change := Nat → Pair → Option Pair

/-- Nothing else than another list may come in place of a value. -/
def Kindred (x y : Tree) : Prop := x = y ∨ ∃ items items', x = .list items ∧ y = .list items'

variable {F : Type} {v : Vocabulary F} {content : String}

theorem Kindred.not_mapping {x y : Tree} (kindred : Kindred x y)
    (bare : ∀ entries, x ≠ .mapping entries) : ∀ entries, y ≠ .mapping entries := by
  rcases kindred with rfl | ⟨items, items', -, rfl⟩
  · exact bare
  · exact nofun

theorem Kindred.not_flag {x y : Tree} (kindred : Kindred x y) (clear : ∀ b, x ≠ .flag b) :
    ∀ b, y ≠ .flag b := by
  rcases kindred with rfl | ⟨items, items', -, rfl⟩
  · exact clear
  · exact nofun

theorem Kindred.headed {x y : Tree} (kindred : Kindred x y) (headed : Headed v x) :
    Headed v y := by
  rcases kindred with rfl | ⟨items, items', -, rfl⟩
  · exact headed
  · trivial

/-- A value that is neither a definition nor nothing is content. -/
structure IsContent (value : Tree) : Prop where
  bare : ∀ nested, value ≠ .mapping nested
  some : value ≠ .null

theorem IsContent.of_kindred {x y : Tree} (h : IsContent x) (kindred : Kindred x y) :
    IsContent y where
  bare := kindred.not_mapping h.bare
  some := by
    rcases kindred with rfl | ⟨items, items', -, rfl⟩
    · exact h.some
    · exact nofun

namespace Change

def pairs (change : Change) (start : Nat) (list : List Pair) : List Pair :=
  (list.zipIdx start).filterMap fun p => change p.2 p.1

/-- The same of entries that are laid out as they are. -/
def entries (change : Change) (start : Nat) (list : List (Tree × Tree)) : List (Tree × Tree) :=
  (list.zipIdx start).filterMap fun e =>
    (change e.2 ⟨e.1.1, e.1.2, false⟩).map fun p => (p.key, p.value)

def contentValue (change : Change) (content : String) (start : Nat) : Tree → Tree
  | .mapping nested => .mapping (change.entries start nested)
  | .null => .null
  | value => ((change start ⟨.text content, value, true⟩).map (·.value)).getD value

/-- The entry that is written as the first one was, with each of its pairs changed. -/
def entry (change : Change) (v : Vocabulary F) (content : String) : Tree → Tree
  | .mapping [] => .mapping []
  | .mapping ((name, value) :: rest) =>
    if (v.field? name).isSome then .mapping (change.entries 0 ((name, value) :: rest))
    else
      let own := (namePairs name).length
      .mapping ((name, change.contentValue content own value) ::
        change.entries (own + (contentPairs content value).length) rest)
  | value => change.contentValue content 0 value

/-- Known keys stay known, and what is written plainly stays so. -/
structure KeepsFields (change : Change) (v : Vocabulary F) : Prop where
  known : ∀ m p q, change m p = some q → (v.field? p.key).isSome →
    (v.field? q.key).isSome ∧ q.leading = p.leading

/-- A change that keeps fields, and with them an entry's own name, and puts the like of it in the
place of its content. -/
structure Faithful (change : Change) (v : Vocabulary F) (content : String) (pairs : List Pair) :
    Prop extends KeepsFields change v where
  name : ∀ x after, pairs = ⟨.text "name", x, true⟩ :: after →
    change 0 ⟨.text "name", x, true⟩ = some ⟨.text "name", x, true⟩
  content : ∀ before x after, pairs = before ++ ⟨.text content, x, true⟩ :: after →
    (∀ p ∈ before, p.key = .text "name") → (∀ nested, x ≠ .mapping nested) →
    ∃ y, change before.length ⟨.text content, x, true⟩ = some ⟨.text content, y, true⟩ ∧
      Kindred x y

variable {change : Change}

theorem pairs_append (first later : List Pair) (start : Nat) :
    change.pairs start (first ++ later) =
      change.pairs start first ++ change.pairs (start + first.length) later := by
  rw [pairs, List.zipIdx_append, List.filterMap_append]
  rfl

theorem contentPairs_of_content {value : Tree} (h : IsContent value) :
    contentPairs content value = [⟨.text content, value, true⟩] := by
  rw [contentPairs]
  · exact h.bare
  · exact h.some

theorem contentValue_of_content {value : Tree} (h : IsContent value) (start : Nat) :
    change.contentValue content start value =
      ((change start ⟨.text content, value, true⟩).map (·.value)).getD value := by
  rw [contentValue]
  · exact h.bare
  · exact h.some

theorem namePairs_cases (name : Tree) :
    namePairs name = [] ∨ namePairs name = [⟨.text "name", .text name.plain, true⟩] := by
  unfold namePairs nameFields
  split
  · exact .inl rfl
  · exact .inl rfl
  · exact .inr rfl

theorem namePairs_key (name : Tree) : ∀ p ∈ namePairs name, p.key = .text "name" := by
  rcases namePairs_cases name with none | some
  · rw [none]
    exact nofun
  · rw [some]
    simp

theorem KeepsFields.plainPairs_entries (keeps : change.KeepsFields v)
    {plain : List (Tree × Tree)} (known : ∀ e ∈ plain, (v.field? e.1).isSome) (start : Nat) :
    plainPairs (change.entries start plain) = change.pairs start (plainPairs plain) := by
  rw [plainPairs, entries, List.map_filterMap, pairs, plainPairs, List.zipIdx_map,
    List.filterMap_map]
  refine List.filterMap_congr fun e member => ?_
  change Option.map _ (Option.map _ (change e.2 ⟨e.1.1, e.1.2, false⟩)) =
    change e.2 ⟨e.1.1, e.1.2, false⟩
  cases became : change e.2 ⟨e.1.1, e.1.2, false⟩ with
  | none => rfl
  | some q =>
    have unled := (keeps.known _ _ q became (known _ (List.fst_mem_of_mem_zipIdx member))).2
    obtain ⟨key, value, leading⟩ := q
    cases unled
    rfl

theorem KeepsFields.known_pairs (keeps : change.KeepsFields v) {list : List Pair}
    (known : ∀ p ∈ list, (v.field? p.key).isSome) (start : Nat) :
    ∀ q ∈ change.pairs start list, (v.field? q.key).isSome := by
  intro q member
  obtain ⟨⟨p, m⟩, inside, became⟩ := List.mem_filterMap.mp member
  exact (keeps.known m p q became (known p (List.fst_mem_of_mem_zipIdx inside))).1

namespace Faithful

theorem namePairs_eq {name : Tree} {rest : List Pair}
    (faithful : change.Faithful v content (namePairs name ++ rest)) :
    change.pairs 0 (namePairs name) = namePairs name := by
  rcases namePairs_cases name with none | some
  · rw [none]
    rfl
  · rw [some] at faithful ⊢
    have stays := faithful.name (.text name.plain) rest rfl
    rw [pairs, List.zipIdx_singleton, List.filterMap_cons, stays]
    rfl

/-- Content is replaced by its like. -/
theorem content_replaced {before after : List Pair} {value : Tree} (is : IsContent value)
    (own : ∀ p ∈ before, p.key = .text "name")
    (faithful : change.Faithful v content (before ++ contentPairs content value ++ after)) :
    Kindred value (change.contentValue content before.length value) ∧
      change before.length ⟨.text content, value, true⟩ =
        some ⟨.text content, change.contentValue content before.length value, true⟩ := by
  rw [contentPairs_of_content is] at faithful
  obtain ⟨y, became, kindred⟩ :=
    faithful.content before value after (by rw [List.append_assoc]; rfl) own is.bare
  rw [contentValue_of_content is, became]
  exact ⟨kindred, rfl⟩

theorem kindred_contentValue {before after : List Pair} {value : Tree}
    (own : ∀ p ∈ before, p.key = .text "name")
    (faithful : change.Faithful v content (before ++ contentPairs content value ++ after))
    (bare : ∀ nested, value ≠ .mapping nested) :
    Kindred value (change.contentValue content before.length value) := by
  by_cases nothing : value = .null
  · subst nothing
    exact .inl rfl
  · exact (faithful.content_replaced ⟨bare, nothing⟩ own).1

theorem contentPairs_eq {before after : List Pair} {value : Tree}
    (own : ∀ p ∈ before, p.key = .text "name")
    (faithful : change.Faithful v content (before ++ contentPairs content value ++ after))
    (known : ∀ p ∈ contentPairs content value, (v.field? p.key).isSome) :
    contentPairs content (change.contentValue content before.length value) =
      change.pairs before.length (contentPairs content value) := by
  by_cases nothing : value = .null
  · subst nothing
    rfl
  by_cases mapped : ∃ nested, value = .mapping nested
  · obtain ⟨nested, rfl⟩ := mapped
    exact faithful.plainPairs_entries
      (fun e member => known ⟨e.1, e.2, false⟩ (List.mem_map_of_mem member)) before.length
  · have is : IsContent value := ⟨not_exists.mp mapped, nothing⟩
    obtain ⟨kindred, became⟩ := faithful.content_replaced is own
    rw [contentPairs_of_content (is.of_kindred kindred), contentPairs_of_content is, pairs,
      List.zipIdx_singleton, List.filterMap_cons, became]
    rfl

end Faithful

theorem mentions_of_not_mapping {e : Tree} (bare : ∀ entries, e ≠ .mapping entries) :
    mentions v content e = contentPairs content e := by
  rw [mentions]
  · exact fun empty => bare [] empty
  · exact fun name value rest whole => bare ((name, value) :: rest) whole

theorem entry_of_bare {e : Tree} (bare : ∀ entries, e ≠ .mapping entries) :
    change.entry v content e = change.contentValue content 0 e := by
  rw [entry]
  · exact fun empty => bare [] empty
  · exact fun name value rest whole => bare ((name, value) :: rest) whole

theorem Faithful.alone {e : Tree} (bare : ∀ entries, e ≠ .mapping entries)
    (faithful : change.Faithful v content (mentions v content e)) :
    change.Faithful v content ([] ++ contentPairs content e ++ []) := by
  rwa [List.nil_append, List.append_nil, ← mentions_of_not_mapping bare]

theorem Faithful.kindred_entry {e : Tree} (bare : ∀ entries, e ≠ .mapping entries)
    (faithful : change.Faithful v content (mentions v content e)) :
    Kindred e (change.entry v content e) := by
  rw [entry_of_bare bare]
  exact (faithful.alone bare).kindred_contentValue (List.forall_mem_nil _) bare

/-- An entry with its pairs changed is laid out as the changed pairs. -/
theorem mentions_entry {e : Tree} (readable : Readable v content e)
    (faithful : change.Faithful v content (mentions v content e)) :
    mentions v content (change.entry v content e) = change.pairs 0 (mentions v content e) := by
  by_cases mapped : ∃ entries, e = .mapping entries
  · obtain ⟨entries, rfl⟩ := mapped
    cases entries with
    | nil => rfl
    | cons head rest =>
      obtain ⟨name, value⟩ := head
      have known := readable.known
      rw [entry, mentions]
      rw [mentions] at faithful known
      by_cases first : (v.field? name).isSome = true
      · rw [if_pos first] at faithful known ⊢
        rw [if_pos first]
        have fields : ∀ e ∈ (name, value) :: rest, (v.field? e.1).isSome := fun e member =>
          known ⟨e.1, e.2, false⟩ (List.mem_map_of_mem member)
        rw [← faithful.plainPairs_entries fields]
        have still := faithful.known_pairs known 0
        rw [← faithful.plainPairs_entries fields] at still
        cases left : change.entries 0 ((name, value) :: rest) with
        | nil => rfl
        | cons e more =>
          rw [left] at still
          rw [mentions, if_pos (still ⟨e.1, e.2, false⟩ List.mem_cons_self)]
      · rw [if_neg first] at faithful known ⊢
        rw [if_neg first]
        have filled := fun p member =>
          known p (List.mem_append_left _ (List.mem_append_right (namePairs name) member))
        have fields : ∀ e ∈ rest, (v.field? e.1).isSome := fun e member =>
          known ⟨e.1, e.2, false⟩ (List.mem_append_right _ (List.mem_map_of_mem member))
        rw [mentions, if_neg first, faithful.contentPairs_eq (namePairs_key name) filled,
          faithful.plainPairs_entries fields, pairs_append, pairs_append, List.length_append]
        rw [List.append_assoc] at faithful
        rw [faithful.namePairs_eq, Nat.zero_add, Nat.zero_add]
  · have bare := not_exists.mp mapped
    have known := readable.known
    have kindred := faithful.kindred_entry bare
    rw [mentions_of_not_mapping (kindred.not_mapping bare), entry_of_bare bare]
    rw [mentions_of_not_mapping bare] at known ⊢
    exact (faithful.alone bare).contentPairs_eq (List.forall_mem_nil _) known

/-- It is read like the first one was, as long as something of it is left. -/
theorem readable_entry {e : Tree} (readable : Readable v content e)
    (faithful : change.Faithful v content (mentions v content e))
    (kept : mentions v content e ≠ [] → change.pairs 0 (mentions v content e) ≠ []) :
    Readable v content (change.entry v content e) where
  known q member := by
    rw [mentions_entry readable faithful] at member
    exact faithful.known_pairs readable.known 0 q member
  headed := by
    have headed := readable.headed
    by_cases mapped : ∃ entries, e = .mapping entries
    · obtain ⟨entries, rfl⟩ := mapped
      cases entries with
      | nil => exact headed.elim
      | cons head rest =>
        obtain ⟨name, value⟩ := head
        have known := readable.known
        rw [Headed] at headed
        rw [entry]
        rw [mentions] at faithful known kept
        by_cases first : (v.field? name).isSome = true
        · rw [if_pos first] at faithful known kept ⊢
          have fields : ∀ e ∈ (name, value) :: rest, (v.field? e.1).isSome := fun e member =>
            known ⟨e.1, e.2, false⟩ (List.mem_map_of_mem member)
          have still := faithful.known_pairs known 0
          have some := kept (List.cons_ne_nil _ _)
          rw [← faithful.plainPairs_entries fields] at still some
          cases left : change.entries 0 ((name, value) :: rest) with
          | nil => exact absurd (congrArg plainPairs left) some
          | cons e more =>
            rw [left] at still
            exact .inl (still ⟨e.1, e.2, false⟩ List.mem_cons_self)
        · obtain ⟨named, writable, clear⟩ := headed.resolve_left first
          rw [if_neg first] at faithful ⊢
          refine .inr ⟨named, writable, ?_⟩
          by_cases defined : ∃ nested, value = .mapping nested
          · obtain ⟨nested, rfl⟩ := defined
            intro b flagged
            cases flagged
          · have bare := not_exists.mp defined
            exact (faithful.kindred_contentValue (namePairs_key name) bare).not_flag clear
    · exact (faithful.kindred_entry (not_exists.mp mapped)).headed headed

/-- What was no list becomes none. -/
theorem entry_not_list {e : Tree} (faithful : change.Faithful v content (mentions v content e))
    (single : ∀ items, e ≠ .list items) : ∀ items, change.entry v content e ≠ .list items := by
  by_cases mapped : ∃ entries, e = .mapping entries
  · obtain ⟨entries, rfl⟩ := mapped
    match entries with
    | [] => exact nofun
    | (name, value) :: rest =>
      rw [entry]
      split
      · exact nofun
      · exact nofun
  · rcases faithful.kindred_entry (not_exists.mp mapped) with same | ⟨items, _, list, -⟩
    · exact same ▸ single
    · exact absurd list (single items)

/-! ### Documents -/

theorem KeepsFields.rootPairs_eq {entries : List (Tree × Tree)}
    (keeps : change.KeepsFields projectVocabulary) (readable : ReadableRoot (.mapping entries)) :
    rootPairs (.mapping (change.entries 0 entries)) =
      change.pairs 0 (rootPairs (.mapping entries)) :=
  keeps.plainPairs_entries
    (fun e member => readable.known ⟨e.1, e.2, false⟩ (List.mem_map_of_mem member)) 0

/-- A changed document is read if the same fields are given. -/
theorem KeepsFields.readableRoot {entries : List (Tree × Tree)}
    (keeps : change.KeepsFields projectVocabulary) (readable : ReadableRoot (.mapping entries))
    (given : ∀ f, (chosen projectVocabulary (change.pairs 0 (rootPairs (.mapping entries)))
      f).isSome = (chosen projectVocabulary (rootPairs (.mapping entries)) f).isSome) :
    ReadableRoot (.mapping (change.entries 0 entries)) where
  mapping := ⟨_, rfl⟩
  known := by
    rw [keeps.rootPairs_eq readable]
    exact keeps.known_pairs readable.known 0
  content := by
    rw [keeps.rootPairs_eq readable]
    simpa only [given] using readable.content

/-! ### Nothing changed -/

/-- A change that leaves every pair as it is. -/
def Leaves (change : Change) (start : Nat) (list : List Pair) : Prop :=
  ∀ p ∈ list.zipIdx start, change p.2 p.1 = some p.1

theorem leaves_append {first later : List Pair} {start : Nat} :
    change.Leaves start (first ++ later) ↔
      change.Leaves start first ∧ change.Leaves (start + first.length) later := by
  simp only [Leaves, List.zipIdx_append, List.forall_mem_append]

theorem Leaves.entries_eq {plain : List (Tree × Tree)} {start : Nat}
    (leaves : change.Leaves start (plainPairs plain)) : change.entries start plain = plain := by
  rw [entries]
  have same : ∀ e ∈ plain.zipIdx start,
      (change e.2 ⟨e.1.1, e.1.2, false⟩).map (fun p => (p.key, p.value)) = some e.1 := by
    intro e member
    have stays := leaves (⟨e.1.1, e.1.2, false⟩, e.2) (by
      rw [plainPairs, List.zipIdx_map]
      exact List.mem_map_of_mem member)
    dsimp only at stays
    rw [stays]
    rfl
  rw [List.filterMap_congr same, ← Function.comp_def, List.filterMap_eq_map, List.zipIdx_map_fst]

theorem Leaves.contentValue_eq {value : Tree} {start : Nat}
    (leaves : change.Leaves start (contentPairs content value)) :
    change.contentValue content start value = value := by
  by_cases nothing : value = .null
  · subst nothing
    rfl
  by_cases mapped : ∃ nested, value = .mapping nested
  · obtain ⟨nested, rfl⟩ := mapped
    rw [contentValue, leaves.entries_eq]
  · have is : IsContent value := ⟨not_exists.mp mapped, nothing⟩
    rw [contentPairs_of_content is] at leaves
    rw [contentValue_of_content is, leaves (⟨.text content, value, true⟩, start) (.head _)]
    rfl

theorem Leaves.entry_eq {e : Tree} (leaves : change.Leaves 0 (mentions v content e)) :
    change.entry v content e = e := by
  by_cases mapped : ∃ entries, e = .mapping entries
  · obtain ⟨entries, rfl⟩ := mapped
    match entries with
    | [] => rfl
    | (name, value) :: rest =>
      rw [mentions] at leaves
      rw [entry]
      split
      · rename_i first
        rw [if_pos first] at leaves
        rw [leaves.entries_eq]
      · rename_i first
        rw [if_neg first] at leaves
        obtain ⟨front, plain⟩ := leaves_append.mp leaves
        rw [Nat.zero_add, List.length_append] at plain
        have filled := (leaves_append.mp front).2
        rw [Nat.zero_add] at filled
        dsimp only
        rw [filled.contentValue_eq, plain.entries_eq]
  · have bare := not_exists.mp mapped
    rw [mentions_of_not_mapping bare] at leaves
    rw [entry_of_bare bare, leaves.contentValue_eq]

end Change

/-! ### Names and content -/

section
variable [DecidableEq F]

/-- An entity whose entries can be written as a name with content: the fields that these go to. -/
structure Shorthand (v : Vocabulary F) (content : String) (nameField contentField : F) : Prop where
  complete : v.Complete
  coherent : Coherent v
  name : v.canonical nameField = "name"
  content : v.canonical contentField = content
  apart : nameField ≠ contentField

theorem field?_canonical (coherent : Coherent v) (f : F) :
    v.field? (.text (v.canonical f)) = some f := by
  rw [Vocabulary.field?, Vocabulary.keyField?, coherent f]
  rfl

theorem winner?_of_leading {before after : List Pair} {p : Pair} {f : F}
    (leading : p.leading = true) (named : v.field? p.key = some f)
    (others : ∀ q ∈ before, v.field? q.key ≠ some f) :
    winner? v (before ++ p :: after) f = some before.length := by
  have missed : ∀ q ∈ before, (q.leading && decide (v.field? q.key = some f)) = false :=
    fun q member => by simp [others q member]
  rw [winner?, findIdx?_append_cons (by simp [leading, named]) missed, Option.some_or]

namespace Shorthand
variable {nameField contentField : F} {pairs : List Pair}

theorem name_field (short : Shorthand v content nameField contentField) :
    v.field? (.text "name") = some nameField := by
  rw [← short.name]
  exact field?_canonical short.coherent nameField

theorem content_field (short : Shorthand v content nameField contentField) :
    v.field? (.text content) = some contentField := by
  rw [← short.content]
  exact field?_canonical short.coherent contentField

/-- An entry's own name wins. -/
theorem name_wins (short : Shorthand v content nameField contentField) {x : Tree}
    {after : List Pair} (whole : pairs = ⟨.text "name", x, true⟩ :: after) :
    winner? v pairs nameField = some 0 := by
  rw [whole]
  exact winner?_of_leading rfl short.name_field (List.forall_mem_nil _)

/-- So does the content that goes with it. -/
theorem content_wins (short : Shorthand v content nameField contentField) {x : Tree}
    {before after : List Pair} (whole : pairs = before ++ ⟨.text content, x, true⟩ :: after)
    (own : ∀ p ∈ before, p.key = .text "name") :
    winner? v pairs contentField = some before.length := by
  have others : ∀ q ∈ before, v.field? q.key ≠ some contentField := by
    intro q member other
    rw [own q member, short.name_field] at other
    exact short.apart (Option.some.inj other)
  rw [whole]
  exact winner?_of_leading rfl short.content_field others

end Shorthand

theorem short_pane : Shorthand paneVocabulary "commands" .name .commands where
  complete := complete_pane
  coherent := coherent_pane
  name := by decide
  content := by decide
  apart := by decide

theorem short_window : Shorthand windowVocabulary "panes" .name .panes where
  complete := complete_window
  coherent := coherent_window
  name := by decide
  content := by decide
  apart := by decide

end
end SessionPlan.Document
