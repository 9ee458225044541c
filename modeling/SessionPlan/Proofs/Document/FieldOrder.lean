import SessionPlan.Proofs.Document.LongForm
import SessionPlan.Proofs.Document.Ranked

/-! The order of fields. A mapping of fields may be written in any order, at every level of a
document: the fields get the same values, and the same conflicts are found. Where an entry begins
with its name that key stays first, and the fields in its definition and after it may be in any
order. -/
namespace SessionPlan.Document

variable {F : Type}

/-! ### Documents with their fields in another order -/

/-- A mapping in another order, in which the value of each key stands for the one that it had. No
key comes twice. -/
def Rearranged (R : Tree → Tree → Tree → Prop) (entries others : List (Tree × Tree)) : Prop :=
  (entries.Pairwise fun first later => Tree.same first.1 later.1 = false) ∧
    ∃ between, entries.Perm between ∧
      List.Forall₂ (fun e e' => e.1 = e'.1 ∧ R e.1 e.2 e'.2) between others

/-- What may stand under a key: the same value or, for the content of an entity, one related to
it. -/
def InField (v : Vocabulary F) (content : F) (R : Tree → Tree → Prop) (key x y : Tree) : Prop :=
  x = y ∨ v.field? key = some content ∧ R x y

section
variable (v : Vocabulary F) (content : F) (R : Tree → Tree → Prop)

/-- What may stand after the name of an entry: a definition in another order, or related
content. -/
inductive ValueOrder : Tree → Tree → Prop
  | same (x : Tree) : ValueOrder x x
  | nested {entries others : List (Tree × Tree)}
    (order : Rearranged (InField v content R) entries others) :
    ValueOrder (.mapping entries) (.mapping others)
  | content {items others : List Tree} (order : R (.list items) (.list others)) :
    ValueOrder (.list items) (.list others)

/-- An entry with its fields in another order, and so the parts of its content. A mapping that
names something else than fields stays in its order. -/
inductive EntryOrder : Tree → Tree → Prop
  | same (t : Tree) : EntryOrder t t
  | content {items others : List Tree} (order : R (.list items) (.list others)) :
    EntryOrder (.list items) (.list others)
  | fields {entries others : List (Tree × Tree)} (known : ∀ e ∈ entries, (v.field? e.1).isSome)
    (order : Rearranged (InField v content R) entries others) :
    EntryOrder (.mapping entries) (.mapping others)
  | inPlace {entries others : List (Tree × Tree)}
    (parts : List.Forall₂ (fun e e' => e.1 = e'.1 ∧ InField v content R e.1 e.2 e'.2) entries
      others) : EntryOrder (.mapping entries) (.mapping others)
  | named {name x x' : Tree} {rest rest' : List (Tree × Tree)} (unknown : v.field? name = none)
    (value : ValueOrder v content R x x')
    (order : Rearranged (InField v content R) rest rest') :
    EntryOrder (.mapping ((name, x) :: rest)) (.mapping ((name, x') :: rest'))

/-- Entries in a list, or a single one, each in such an order. -/
inductive ListOrder : Tree → Tree → Prop
  | items {entries others : List Tree} (each : List.Forall₂ R entries others) :
    ListOrder (.list entries) (.list others)
  | single {entries others : List (Tree × Tree)} (entry : R (.mapping entries) (.mapping others)) :
    ListOrder (.mapping entries) (.mapping others)

end

def PaneOrder : Tree → Tree → Prop := EntryOrder paneVocabulary .commands Eq

def WindowOrder : Tree → Tree → Prop := EntryOrder windowVocabulary .panes (ListOrder PaneOrder)

/-- Documents that differ only in the order of keys: those of the project, of windows and panes
that are mappings of fields, of definitions after a name, and after such a definition. -/
inductive ProjectOrder : Tree → Tree → Prop
  | same (t : Tree) : ProjectOrder t t
  | fields {entries others : List (Tree × Tree)}
    (order : Rearranged (InField projectVocabulary .windows (ListOrder WindowOrder)) entries
      others) : ProjectOrder (.mapping entries) (.mapping others)

/-! ### Rearranged mappings -/

theorem Rearranged.reversed {R : Tree → Tree → Tree → Prop} {entries others : List (Tree × Tree)}
    (apart : entries.Pairwise fun first later => Tree.same first.1 later.1 = false)
    (parts : List.Forall₂ (fun e e' => e.1 = e'.1 ∧ R e.1 e.2 e'.2) entries.reverse others) :
    Rearranged R entries others :=
  ⟨apart, entries.reverse, (List.reverse_perm entries).symm, parts⟩

theorem Rearranged.keys {R : Tree → Tree → Tree → Prop} {entries others : List (Tree × Tree)}
    (order : Rearranged R entries others) : (entries.map Prod.fst).Perm (others.map Prod.fst) := by
  obtain ⟨-, between, perm, parts⟩ := order
  rw [← map_eq_of_forall₂ (fun _ _ part => part.1) parts]
  exact perm.map _

theorem Rearranged.known {v : Vocabulary F} {R : Tree → Tree → Tree → Prop}
    {entries others : List (Tree × Tree)}
    (order : Rearranged R entries others) (known : ∀ e ∈ entries, (v.field? e.1).isSome) :
    ∀ e ∈ others, (v.field? e.1).isSome := by
  have keys : ∀ key ∈ entries.map Prod.fst, (v.field? key).isSome := List.forall_mem_map.mpr known
  exact List.forall_mem_map.mp fun key member => keys key (order.keys.mem_iff.mpr member)

/-- Whether a definition names something else than fields does not hang on its order. -/
theorem Rearranged.find?_unknown {v : Vocabulary F} {R : Tree → Tree → Tree → Prop}
    {entries others : List (Tree × Tree)} (order : Rearranged R entries others) :
    (entries.find? fun (key, _) => (v.keyField? key).isNone).isSome =
      (others.find? fun (key, _) => (v.keyField? key).isNone).isSome := by
  have keys (list : List (Tree × Tree)) :
      (list.find? fun (key, _) => (v.keyField? key).isNone).isSome =
        (list.map Prod.fst).any fun key => (v.keyField? key).isNone := by
    rw [List.isSome_find?, List.any_map]
    rfl
  rw [keys, keys, order.keys.any_eq]

/-! ### No comparison tells them apart -/

section
variable {v : Vocabulary F} {content : F} {R : Tree → Tree → Prop}

theorem InField.alike (alike : ∀ x y, R x y → Tree.Alike x y) {key x y : Tree}
    (h : InField v content R key x y) : Tree.Alike x y := by
  rcases h with rfl | ⟨-, related⟩
  · exact .refl x
  · exact alike x y related

theorem inPlace_alike (alike : ∀ x y, R x y → Tree.Alike x y) {entries others : List (Tree × Tree)}
    (parts : List.Forall₂ (fun e e' => e.1 = e'.1 ∧ InField v content R e.1 e.2 e'.2) entries
      others) : List.Forall₂ Tree.KeyedAlike entries others :=
  parts.imp fun _ _ part => ⟨part.1, part.2.alike alike⟩

theorem Rearranged.alike (alike : ∀ x y, R x y → Tree.Alike x y)
    {entries others : List (Tree × Tree)}
    (order : Rearranged (InField v content R) entries others) :
    Tree.Alike (.mapping entries) (.mapping others) := by
  obtain ⟨-, between, perm, parts⟩ := order
  exact Tree.alike_mapping perm (inPlace_alike alike parts)

theorem EntryOrder.alike (alike : ∀ x y, R x y → Tree.Alike x y) {t t' : Tree}
    (order : EntryOrder v content R t t') : Tree.Alike t t' := by
  cases order with
  | same => exact .refl t
  | content order => exact alike _ _ order
  | fields _ order => exact order.alike alike
  | inPlace parts => exact Tree.alike_mapping (.refl _) (inPlace_alike alike parts)
  | @named name x x' rest rest' _ value order =>
    obtain ⟨-, between, perm, parts⟩ := order
    have first : Tree.Alike x x' := by
      cases value with
      | same => exact .refl x
      | nested order => exact order.alike alike
      | content order => exact alike _ _ order
    exact Tree.alike_mapping (perm.cons (name, x)) (.cons ⟨rfl, first⟩ (inPlace_alike alike parts))

theorem ListOrder.alike (alike : ∀ x y, R x y → Tree.Alike x y) {t t' : Tree}
    (order : ListOrder R t t') : Tree.Alike t t' := by
  cases order with
  | items each => exact Tree.alike_list (each.imp alike)
  | single entry => exact alike _ _ entry

end

theorem PaneOrder.alike {t t' : Tree} (order : PaneOrder t t') : Tree.Alike t t' := by
  apply EntryOrder.alike _ order
  rintro x _ rfl
  exact .refl x

theorem WindowOrder.alike {t t' : Tree} (order : WindowOrder t t') : Tree.Alike t t' :=
  EntryOrder.alike (fun _ _ => ListOrder.alike fun _ _ => PaneOrder.alike) order

/-! ### Names of fields -/

/-- No two names stand for one field with one rank. -/
def Vocabulary.Separate (v : Vocabulary F) : Prop :=
  ∀ a b f r, v.find? a = some (f, r) → v.find? b = some (f, r) → a = b

theorem Vocabulary.separate_of_nodup {v : Vocabulary F}
    (distinct : (v.names.map Prod.fst).Nodup) : v.Separate := by
  have spelled {name : String} {f : F} {r : Nat} (found : v.find? name = some (f, r)) :
      ∃ names, (f, names) ∈ v.names ∧ names[r]? = some name := by
    obtain ⟨⟨g, names⟩, member, at_rank⟩ := List.exists_of_findSome?_eq_some found
    obtain ⟨rank, place, same⟩ := Option.map_eq_some_iff.mp at_rank
    cases same
    refine ⟨names, member, ?_⟩
    rw [List.idxOf?, List.findIdx?_eq_some_iff_getElem] at place
    obtain ⟨inside, here, -⟩ := place
    rw [List.getElem?_eq_getElem inside, eq_of_beq here]
  intro a b f r first second
  obtain ⟨names, known, here⟩ := spelled first
  obtain ⟨others, listed, there⟩ := spelled second
  obtain rfl : names = others := by
    have same := List.inj_on_of_nodup_map distinct known listed rfl
    exact (Prod.mk.inj same).2
  rw [here] at there
  exact Option.some.inj there

theorem separate_pane : paneVocabulary.Separate := Vocabulary.separate_of_nodup (by decide)
theorem separate_window : windowVocabulary.Separate := Vocabulary.separate_of_nodup (by decide)
theorem separate_project : projectVocabulary.Separate := Vocabulary.separate_of_nodup (by decide)

theorem keyField?_eq_some {v : Vocabulary F} {key : Tree} {name : String} {f : F} {r : Nat} :
    v.keyField? key = some (name, f, r) ↔ key = .text name ∧ v.find? name = some (f, r) := by
  cases key with
  | text s =>
    simp only [Vocabulary.keyField?, Option.map_eq_some_iff, Prod.mk.injEq, Tree.text.injEq]
    constructor
    · rintro ⟨⟨g, k⟩, found, rfl, rfl, rfl⟩
      exact ⟨rfl, found⟩
    · rintro ⟨rfl, found⟩
      exact ⟨_, found, rfl, rfl, rfl⟩
  | _ => simp [Vocabulary.keyField?]

/-! ### Pairs in another order -/

/-- The value of a content field may stand for another. -/
def Standing (content : F) (R : Tree → Tree → Prop) (f : F) (x y : Tree) : Prop :=
  x = y ∨ f = content ∧ R x y

/-- Values of fields that stand for each other. -/
def FieldsStand (content : F) (R : Tree → Tree → Prop) (fields fields' : F → Option Tree) : Prop :=
  ∀ f, Option.Rel (Standing content R f) (fields f) (fields' f)

theorem eq_of_rel {S : Tree → Tree → Prop} (equal : ∀ x y, S x y → x = y) {a b : Option Tree}
    (rel : Option.Rel S a b) : a = b := by
  cases rel with
  | none => rfl
  | some related => rw [equal _ _ related]

namespace FieldsStand
variable {content : F} {R : Tree → Tree → Prop} {fields fields' : F → Option Tree}

/-- All fields but the content have the values that they had. -/
theorem field_eq (stand : FieldsStand content R fields fields') {f : F} (other : f ≠ content) :
    fields f = fields' f :=
  eq_of_rel (fun _ _ standing => standing.resolve_right fun related => other related.1) (stand f)

theorem content_eq_or (stand : FieldsStand content R fields fields') :
    orNull fields content = orNull fields' content ∨
      R (orNull fields content) (orNull fields' content) := by
  have value := stand content
  rw [orNull, orNull]
  generalize fields content = a at value ⊢
  generalize fields' content = b at value ⊢
  cases value with
  | none => exact .inl rfl
  | some standing => exact standing.imp_right And.right

theorem isSome_eq (stand : FieldsStand content R fields fields') (f : F) :
    (fields f).isSome = (fields' f).isSome := by
  have value := stand f
  generalize fields f = a at value ⊢
  generalize fields' f = b at value ⊢
  cases value <;> rfl

theorem eq_of_eq (stand : FieldsStand content Eq fields fields') : fields = fields' := by
  funext f
  apply eq_of_rel _ (stand f)
  rintro x y (same | ⟨-, same⟩)
  · exact same
  · exact same

end FieldsStand

theorem mapM_occurrence_eq_error {v : Vocabulary F} {pairs : List Pair}
    (unknown : ¬∀ p ∈ pairs, (v.field? p.key).isSome) (path : String) :
    ∃ e, pairs.mapM (Pair.occurrence v path) = .error e := by
  induction pairs with
  | nil => exact absurd (fun p member => absurd member List.not_mem_nil) unknown
  | cons p rest ih =>
    rw [List.mapM_cons]
    cases named : v.keyField? p.key with
    | none =>
      obtain ⟨e, failed⟩ := reject_fails (α := Occurrence F) (.fieldUnknown v.entity p.key) path
      rw [Pair.occurrence, named]
      exact ⟨e, by simp only [failed]; rfl⟩
    | some found =>
      have field : (v.field? p.key).isSome := by rw [Vocabulary.field?, named]; rfl
      obtain ⟨e, failed⟩ := ih fun known => unknown (List.forall_mem_cons.mpr ⟨field, known⟩)
      exact ⟨e, by rw [Pair.occurrence, named, failed]; rfl⟩

/-- Pairs that name the same fields, in another order and with values that stand for those of the
first. -/
structure PairsOrder [DecidableEq F] (v : Vocabulary F) (content : F) (R : Tree → Tree → Prop)
    (pairs others : List Pair) : Prop where
  keys : (pairs.map (·.key)).Perm (others.map (·.key))
  occurrences : Reordered (Standing content R) (pairs.filterMap (Pair.occurrence? v))
    (others.filterMap (Pair.occurrence? v))

variable [DecidableEq F] {v : Vocabulary F} {content : F} {R : Tree → Tree → Prop}

theorem PairsOrder.append {pairs others later laterOthers : List Pair}
    (first : PairsOrder v content R pairs others)
    (second : PairsOrder v content R later laterOthers) :
    PairsOrder v content R (pairs ++ later) (others ++ laterOthers) := by
  constructor
  · rw [List.map_append, List.map_append]
    exact first.keys.append second.keys
  · rw [List.filterMap_append, List.filterMap_append]
    exact first.occurrences.append second.occurrences

/-- A pair with a value that stands for the one it had. -/
structure PairStands (v : Vocabulary F) (content : F) (R : Tree → Tree → Prop) (p q : Pair) :
    Prop where
  key : p.key = q.key
  leading : p.leading = q.leading
  value : InField v content R p.key p.value q.value

omit [DecidableEq F] in
theorem PairStands.occurrence? {p q : Pair} (stands : PairStands v content R p q) :
    Option.Rel (Revalued (Standing content R)) (p.occurrence? v) (q.occurrence? v) := by
  rw [Pair.occurrence?, Pair.occurrence?, ← stands.key, ← stands.leading]
  cases named : v.keyField? p.key with
  | none => exact .none
  | some found =>
    obtain ⟨key, f, rank⟩ := found
    refine .some ⟨rfl, rfl, rfl, ?_⟩
    rcases stands.value with same | ⟨field, related⟩
    · exact .inl same
    · rw [Vocabulary.field?, named] at field
      exact .inr ⟨Option.some.inj field, related⟩

theorem PairsOrder.in_place {pairs others : List Pair}
    (stand : List.Forall₂ (PairStands v content R) pairs others) :
    PairsOrder v content R pairs others := by
  constructor
  · rw [map_eq_of_forall₂ (fun _ _ pair => pair.key) stand]
  · apply Reordered.of_forall₂
    exact List.rel_filterMap (fun _ _ => PairStands.occurrence?) stand

theorem PairsOrder.refl (pairs : List Pair) : PairsOrder v content R pairs pairs :=
  .in_place (List.forall₂_same.mpr fun _ _ => ⟨rfl, rfl, .inl rfl⟩)

omit [DecidableEq F] in
/-- Plain pairs with different keys never tie. -/
theorem untied_plainPairs (separate : v.Separate) {entries : List (Tree × Tree)}
    (distinct : entries.Pairwise fun first later => Tree.same first.1 later.1 = false) :
    ((plainPairs entries).filterMap (Pair.occurrence? v)).Pairwise fun o o' => ¬o.Ties o' := by
  rw [List.pairwise_filterMap, plainPairs, List.pairwise_map]
  refine distinct.imp fun {e e'} apart o found o' found' ties => ?_
  obtain ⟨k, x⟩ := e
  obtain ⟨k', x'⟩ := e'
  obtain ⟨⟨name, f, rank⟩, named, rfl⟩ := Option.map_eq_some_iff.mp found
  obtain ⟨⟨name', f', rank'⟩, named', rfl⟩ := Option.map_eq_some_iff.mp found'
  obtain ⟨rfl, first⟩ := keyField?_eq_some.mp named
  obtain ⟨rfl, second⟩ := keyField?_eq_some.mp named'
  obtain ⟨rfl, level⟩ : f = f' ∧ rank = rank' := by simpa [Occurrence.Ties] using ties
  rw [← level] at second
  rw [separate name name' f rank first second] at apart
  simp [Tree.same, Tree.sameLeaf] at apart

omit [DecidableEq F] in
theorem plainPairs_stand {entries others : List (Tree × Tree)}
    (parts : List.Forall₂ (fun e e' => e.1 = e'.1 ∧ InField v content R e.1 e.2 e'.2) entries
      others) : List.Forall₂ (PairStands v content R) (plainPairs entries) (plainPairs others) := by
  rw [plainPairs, plainPairs, List.forall₂_map_left_iff, List.forall₂_map_right_iff]
  exact parts.imp fun _ _ part => ⟨part.1, rfl, part.2⟩

/-- So the entries of a mapping may come in any order. -/
theorem PairsOrder.of_rearranged (separate : v.Separate) {entries others : List (Tree × Tree)}
    (order : Rearranged (InField v content R) entries others) :
    PairsOrder v content R (plainPairs entries) (plainPairs others) := by
  obtain ⟨distinct, between, perm, parts⟩ := order
  have stand := plainPairs_stand parts
  constructor
  · exact ((perm.map _).map _).trans (PairsOrder.in_place stand).keys
  · exact .of_perm ((perm.map _).filterMap _) (untied_plainPairs separate distinct)
      (List.rel_filterMap (fun _ _ => PairStands.occurrence?) stand)

/-- Pairs in another order give the fields values that stand for each other, and the same
conflicts. -/
theorem PairsOrder.readFields {pairs others : List Pair}
    (order : PairsOrder v content R pairs others) (alike : ∀ x y, R x y → Tree.Alike x y)
    (path : String) : (readFields v path pairs).Related (FieldsStand content R)
      (Document.readFields v path others) := by
  have standing : ∀ f x y, Standing content R f x y → Tree.Alike x y := by
    rintro f x y (rfl | ⟨-, related⟩)
    · exact .refl x
    · exact alike x y related
  have keys : (∀ p ∈ pairs, (v.field? p.key).isSome) ↔ ∀ p ∈ others, (v.field? p.key).isSome := by
    have key_of (list : List Pair) : (∀ p ∈ list, (v.field? p.key).isSome) ↔
        ∀ key ∈ list.map (·.key), (v.field? key).isSome := by simp only [List.forall_mem_map]
    rw [key_of, key_of]
    exact forall_congr' fun key => imp_congr_left order.keys.mem_iff
  by_cases known : ∀ p ∈ pairs, (v.field? p.key).isSome
  · rw [Document.readFields, Document.readFields, mapM_occurrence_eq_ok known,
      mapM_occurrence_eq_ok (keys.mp known), Noted.lift_ok, Noted.lift_ok, Noted.pure_bind,
      Noted.pure_bind]
    refine ⟨order.occurrences.chosen, fun _ _ => ?_⟩
    exact (order.occurrences.conflicts_perm standing v path).append_right []
  · obtain ⟨e, failed⟩ := mapM_occurrence_eq_error known path
    obtain ⟨e', failed'⟩ := mapM_occurrence_eq_error (mt keys.mpr known) path
    rw [Document.readFields, Document.readFields, failed, failed']
    exact ⟨trivial, fun _ found => by cases found⟩

end SessionPlan.Document
