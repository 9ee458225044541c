import Mathlib.Data.List.Perm.Basic
import SessionPlan.Proofs.Document.FieldOrder

/-! Which pair of a mapping gives a field its value, and which pairs are ignored with a report. The
winner is found by going through the names that the vocabulary accepts for the field, from the first
to the last; reading the pairs comes to the same. -/
namespace SessionPlan.Document

variable {F : Type} [DecidableEq F] {v : Vocabulary F}

/-! ### Names of a field -/

/-- The accepted names of a field, the strongest first. -/
def Vocabulary.namesOf (v : Vocabulary F) (f : F) : List String :=
  ((v.names.find? (·.1 = f)).map Prod.snd).getD []

/-- A name stands for one field, by its place among the names of that field. -/
def Vocabulary.Listed (v : Vocabulary F) : Prop :=
  ∀ name f r, v.find? name = some (f, r) ↔ (v.namesOf f)[r]? = some name

theorem Vocabulary.listed_of_distinct (distinct : (v.names.map Prod.fst).Nodup)
    (found : ∀ e ∈ v.names, ∀ n ∈ e.2.zipIdx, v.find? n.1 = some (e.1, n.2)) : v.Listed := by
  intro name f r
  constructor
  · intro known
    obtain ⟨⟨g, names⟩, member, here⟩ := List.exists_of_findSome?_eq_some known
    obtain ⟨place, indexed, same⟩ := Option.map_eq_some_iff.mp here
    cases same
    have own : v.names.find? (·.1 = f) = some (f, names) := by
      obtain ⟨⟨g, others⟩, first⟩ := Option.isSome_iff_exists.mp
        (List.find?_isSome (p := fun e : F × List String => decide (e.1 = f)) |>.mpr
          ⟨(f, names), member, decide_eq_true rfl⟩)
      have field : g = f := by simpa using List.find?_some first
      rw [first, List.inj_on_of_nodup_map distinct (List.mem_of_find?_eq_some first) member field]
    rw [List.idxOf?, List.findIdx?_eq_some_iff_getElem] at indexed
    obtain ⟨inside, equal, -⟩ := indexed
    rw [Vocabulary.namesOf, own, Option.map_some, Option.getD_some, List.getElem?_eq_getElem inside,
      eq_of_beq equal]
  · intro listed
    rw [Vocabulary.namesOf] at listed
    cases own : v.names.find? (·.1 = f) with
    | none => rw [own] at listed; cases listed
    | some e =>
      rw [own, Option.map_some, Option.getD_some] at listed
      obtain rfl : e.1 = f := by simpa using List.find?_some own
      exact found e (List.mem_of_find?_eq_some own) (name, r)
        (List.mk_mem_zipIdx_iff_getElem?.mpr listed)

/-- The vocabulary has each field, has it once, and has no name for two fields. -/
structure Vocabulary.Complete (v : Vocabulary F) : Prop where
  listed : v.Listed
  distinct : (v.names.map Prod.fst).Nodup
  all : ∀ f, f ∈ v.names.map Prod.fst

theorem complete_pane : paneVocabulary.Complete where
  listed := Vocabulary.listed_of_distinct (by decide) (by decide)
  distinct := by decide
  all f := by cases f <;> decide

theorem complete_window : windowVocabulary.Complete where
  listed := Vocabulary.listed_of_distinct (by decide) (by decide)
  distinct := by decide
  all f := by cases f <;> decide

theorem complete_project : projectVocabulary.Complete where
  listed := Vocabulary.listed_of_distinct (by decide) (by decide)
  distinct := by decide
  all f := by cases f <;> decide

/-! ### The winner -/

/-- The place of the pair that gives the field its value. A leading pair comes before all names; of
these it is the first in the vocabulary that is there, and of two pairs under one name the first. -/
def winner? (v : Vocabulary F) (pairs : List Pair) (f : F) : Option Nat :=
  (pairs.findIdx? fun p => p.leading && v.field? p.key = some f).or
    ((v.namesOf f).findSome? fun name =>
      pairs.findIdx? fun p => !p.leading && p.key.text? = some name)

/-- The value that the winner gives the field. -/
def chosen (v : Vocabulary F) (pairs : List Pair) (f : F) : Option Tree :=
  (winner? v pairs f).bind fun m => pairs[m]?.map (·.value)

/-- The pairs of a field that lose with another value than the winner's, each reported once. -/
def clashesOf (v : Vocabulary F) (path : String) (pairs : List Pair) (f : F) : List Conflict :=
  match winner? v pairs f with
  | none => []
  | some m =>
    (pairs[m]?.toList).flatMap fun best =>
      ((pairs.eraseIdx m).filter fun p =>
        v.field? p.key = some f && !p.value.equals best.value).map fun p =>
          ⟨v.entity, path, v.canonical f, best.key.plain, p.key.plain⟩

def clashes (v : Vocabulary F) (path : String) (pairs : List Pair) : List Conflict :=
  (v.names.map Prod.fst).flatMap (clashesOf v path pairs)

/-! ### Ranks -/

omit [DecidableEq F] in
theorem occurrence?_eq_some {p : Pair} {o : Occurrence F} :
    p.occurrence? v = some o ↔ p.key = .text o.key ∧ p.value = o.value ∧
      ∃ place, v.find? o.key = some (o.field, place) ∧
        o.rank = if p.leading then 0 else place + 1 := by
  rw [Pair.occurrence?, Option.map_eq_some_iff]
  constructor
  · rintro ⟨⟨key, f, place⟩, named, rfl⟩
    obtain ⟨spelled, found⟩ := keyField?_eq_some.mp named
    exact ⟨spelled, rfl, place, found, rfl⟩
  · rintro ⟨spelled, value, place, found, rank⟩
    refine ⟨(o.key, o.field, place), keyField?_eq_some.mpr ⟨spelled, found⟩, ?_⟩
    simp only [value, ← rank]

omit [DecidableEq F] in
theorem field?_eq_some {p : Pair} {f : F} :
    v.field? p.key = some f ↔ ∃ o, p.occurrence? v = some o ∧ o.field = f := by
  rw [Vocabulary.field?, Pair.occurrence?]
  cases v.keyField? p.key with
  | none => simp
  | some named => simp

/-- The strongest occurrence of a field stands before all that are as strong. -/
theorem ranked_eq_cons {f : F} {found others : List (Occurrence F)} {w : Occurrence F}
    (sorted : ranked f found = w :: others) :
    ∃ before after, found = before ++ w :: after ∧ w.field = f ∧
      (∀ o ∈ before, o.field = f → w.rank < o.rank) ∧
      (∀ o ∈ after, o.field = f → w.rank ≤ o.rank) ∧
      others.Perm ((before ++ after).filter (·.field = f)) := by
  have ascending : (w :: others).Pairwise fun a b => a.rank ≤ b.rank := by
    rw [← sorted, ranked]
    exact mergeSort_sorted _ _
  have perm : (w :: others).Perm (found.filter (·.field = f)) := by
    rw [← sorted, ranked]
    exact List.mergeSort_perm _ _
  have least : ∀ o ∈ found, o.field = f → w.rank ≤ o.rank := by
    intro o member own
    have known : o ∈ w :: others :=
      perm.mem_iff.mpr (List.mem_filter.mpr ⟨member, decide_eq_true own⟩)
    rcases List.mem_cons.mp known with rfl | later
    · exact Nat.le_refl _
    · exact (List.pairwise_cons.mp ascending).1 o later
  have level : found.filter (fun o => o.rank = w.rank && o.field = f) =
      w :: others.filter (·.rank = w.rank) := by
    have same := filter_mergeSort (·.rank) (found.filter (·.field = f)) w.rank
    rw [← ranked, sorted, List.filter_cons_of_pos (by simp), List.filter_filter] at same
    exact same.symm
  obtain ⟨before, after, rfl, weaker, own, -⟩ := List.filter_eq_cons_iff.mp level
  rw [Bool.and_eq_true, decide_eq_true_eq, decide_eq_true_eq] at own
  refine ⟨before, after, rfl, own.2, ?_, ?_, ?_⟩
  · intro o member field
    have other := weaker o member
    have bound := least o (List.mem_append_left _ member) field
    simp only [field, decide_true, Bool.and_true, decide_eq_true_eq] at other
    omega
  · exact fun o member => least o (List.mem_append_right _ (List.mem_cons_of_mem _ member))
  · rw [List.filter_append, List.filter_cons_of_pos (by simpa using own.2)] at perm
    rw [List.filter_append]
    exact (perm.trans List.perm_middle).cons_inv

omit [DecidableEq F] in
/-- A pair under a listed name has the rank of the name. -/
theorem occurrence?_of_name {p : Pair} {name : String} {f : F} {place : Nat}
    (unled : p.leading = false) (spelled : p.key.text? = some name)
    (found : v.find? name = some (f, place)) :
    p.occurrence? v = some ⟨f, place + 1, name, p.value⟩ := by
  have key : p.key = .text name := by
    cases same : p.key <;> simp_all [Tree.text?]
  exact occurrence?_eq_some.mpr ⟨key, rfl, place, found, by rw [unled]; rfl⟩

omit [DecidableEq F] in
theorem occurrence?_of_leading {p : Pair} {f : F} (leading : p.leading = true)
    (named : v.field? p.key = some f) :
    ∃ o, p.occurrence? v = some o ∧ o.field = f ∧ o.rank = 0 := by
  obtain ⟨o, occurs, same⟩ := field?_eq_some.mp named
  obtain ⟨-, -, _, -, rank⟩ := occurrence?_eq_some.mp occurs
  exact ⟨o, occurs, same, by rw [rank, if_pos leading]⟩

/-- A leading pair of the field would be of rank zero. -/
theorem unled_of_rank {pairs : List Pair} {f : F}
    (weak : ∀ q ∈ pairs, ∀ o, q.occurrence? v = some o → o.field = f → 0 < o.rank) :
    ∀ q ∈ pairs, (q.leading && decide (v.field? q.key = some f)) = false := by
  intro q member
  rw [Bool.eq_false_iff, Ne, Bool.and_eq_true, decide_eq_true_eq]
  rintro ⟨first, named⟩
  obtain ⟨o, occurs, same, zero⟩ := occurrence?_of_leading first named
  have beaten := weak q member o occurs same
  omega

omit [DecidableEq F] in
/-- A pair under the name would be of the rank of the name. -/
theorem unspelled_of_rank {name : String} {f : F} {place : Nat}
    (found : v.find? name = some (f, place)) {pairs : List Pair}
    (other : ∀ q ∈ pairs, ∀ o, q.occurrence? v = some o → o.field = f → o.rank ≠ place + 1) :
    ∀ q ∈ pairs, (!q.leading && decide (q.key.text? = some name)) = false := by
  intro q member
  rw [Bool.eq_false_iff, Ne, Bool.and_eq_true, decide_eq_true_eq, Bool.not_eq_true']
  rintro ⟨plain, key⟩
  exact other q member _ (occurrence?_of_name plain key found) rfl rfl

/-- Going through the names finds a pair that no pair before it matches and none after it beats. -/
theorem winner?_of_split (listed : v.Listed) {before after : List Pair} {p : Pair}
    {w : Occurrence F} (own : p.occurrence? v = some w)
    (weaker : ∀ q ∈ before, ∀ o, q.occurrence? v = some o → o.field = w.field → w.rank < o.rank)
    (no_stronger : ∀ q ∈ after, ∀ o, q.occurrence? v = some o → o.field = w.field →
      w.rank ≤ o.rank) :
    winner? v (before ++ p :: after) w.field = some before.length := by
  obtain ⟨spelled, -, place, found, rank⟩ := occurrence?_eq_some.mp own
  have least : ∀ q ∈ before ++ p :: after, ∀ o, q.occurrence? v = some o → o.field = w.field →
      w.rank ≤ o.rank := by
    intro q member o occurs same
    rcases List.mem_append.mp member with early | late
    · exact Nat.le_of_lt (weaker q early o occurs same)
    · rcases List.mem_cons.mp late with rfl | later
      · rw [own] at occurs
        cases occurs
        exact Nat.le_refl _
      · exact no_stronger q later o occurs same
  rw [winner?]
  cases leading : p.leading with
  | true =>
    rw [leading, if_pos rfl] at rank
    have missed := unled_of_rank (f := w.field) fun q member o occurs same =>
      rank ▸ weaker q member o occurs same
    rw [findIdx?_append_cons (by simp [leading, field?_eq_some.mpr ⟨w, own, rfl⟩]) missed,
      Option.some_or]
  | false =>
    rw [leading, if_neg (by decide)] at rank
    have unled := unled_of_rank (f := w.field) fun q member o occurs same =>
      Nat.lt_of_lt_of_le (by omega) (least q member o occurs same)
    obtain ⟨inside, here⟩ := List.getElem?_eq_some_iff.mp ((listed _ _ _).mp found)
    have names : v.namesOf w.field =
        (v.namesOf w.field).take place ++ w.key :: (v.namesOf w.field).drop (place + 1) := by
      rw [← here, List.getElem_cons_drop, List.take_append_drop]
    -- a pair under a name before this one would be stronger
    have stronger : ((v.namesOf w.field).take place).findSome? (fun name =>
        (before ++ p :: after).findIdx? fun p => !p.leading && p.key.text? = some name) = none := by
      refine List.findSome?_eq_none_iff.mpr fun name earlier => List.findIdx?_eq_none_iff.mpr ?_
      obtain ⟨i, bound, there⟩ := List.mem_take_iff_getElem.mp earlier
      have known : v.find? name = some (w.field, i) :=
        (listed _ _ _).mpr (List.getElem?_eq_some_iff.mpr ⟨_, there⟩)
      refine unspelled_of_rank known fun q member o occurs same => ?_
      have bound := least q member o occurs same
      omega
    have missed := unspelled_of_rank found fun q member o occurs same =>
      Nat.ne_of_gt (rank ▸ weaker q member o occurs same)
    rw [List.findIdx?_eq_none_iff.mpr unled, Option.none_or, names, List.findSome?_append, stronger,
      Option.none_or, List.findSome?_cons,
      findIdx?_append_cons (by simp [leading, spelled, Tree.text?]) missed]

/-- A field that no pair names has no winner. -/
theorem winner?_eq_none (listed : v.Listed) {pairs : List Pair} {f : F}
    (unnamed : ∀ p ∈ pairs, v.field? p.key ≠ some f) : winner? v pairs f = none := by
  have leads : pairs.findIdx? (fun p => p.leading && v.field? p.key = some f) = none :=
    List.findIdx?_eq_none_iff.mpr fun p member => by simp [unnamed p member]
  rw [winner?, leads, Option.none_or]
  refine List.findSome?_eq_none_iff.mpr fun name member =>
    List.findIdx?_eq_none_iff.mpr fun p known => ?_
  rw [Bool.eq_false_iff, Ne, Bool.and_eq_true, decide_eq_true_eq, Bool.not_eq_true']
  rintro ⟨plain, key⟩
  obtain ⟨place, here⟩ := List.mem_iff_getElem?.mp member
  have found := (listed name f place).mpr here
  exact unnamed p known (field?_eq_some.mpr ⟨_, occurrence?_of_name plain key found, rfl⟩)

theorem mem_ranked_of_named {pairs : List Pair} {f : F} {p : Pair} (member : p ∈ pairs)
    (named : v.field? p.key = some f) :
    ∃ o, o ∈ ranked f (pairs.filterMap (Pair.occurrence? v)) := by
  obtain ⟨o, occurs, same⟩ := field?_eq_some.mp named
  refine ⟨o, ?_⟩
  rw [ranked, List.mem_mergeSort]
  exact List.mem_filter.mpr ⟨List.mem_filterMap.mpr ⟨p, member, occurs⟩, decide_eq_true same⟩

/-- Ranking the pairs and going through the names find the same winner. -/
theorem ranked_cases (listed : v.Listed) (pairs : List Pair) (f : F) :
    (winner? v pairs f = none ∧ ranked f (pairs.filterMap (Pair.occurrence? v)) = []) ∨
      ∃ before p after w others, pairs = before ++ p :: after ∧
        winner? v pairs f = some before.length ∧ p.occurrence? v = some w ∧ w.field = f ∧
        ranked f (pairs.filterMap (Pair.occurrence? v)) = w :: others ∧
        others.Perm (((before ++ after).filterMap (Pair.occurrence? v)).filter (·.field = f)) := by
  cases sorted : ranked f (pairs.filterMap (Pair.occurrence? v)) with
  | nil =>
    refine .inl ⟨winner?_eq_none listed fun p member named => ?_, rfl⟩
    obtain ⟨o, known⟩ := mem_ranked_of_named member named
    rw [sorted] at known
    cases known
  | cons w others =>
    obtain ⟨early, late, split, rfl, weaker, no_stronger, perm⟩ := ranked_eq_cons sorted
    obtain ⟨first, second, rfl, rfl, found⟩ := List.filterMap_eq_append_iff.mp split
    obtain ⟨skipped, p, after, rfl, silent, own, rfl⟩ := List.filterMap_eq_cons_iff.mp found
    have nothing : skipped.filterMap (Pair.occurrence? v) = [] :=
      List.filterMap_eq_nil_iff.mpr silent
    refine .inr ⟨first ++ skipped, p, after, w, others, by simp, ?_, own, rfl, rfl, ?_⟩
    · rw [← List.append_assoc]
      refine winner?_of_split listed own ?_ ?_
      · intro q member o occurs same
        rcases List.mem_append.mp member with known | passed
        · exact weaker o (List.mem_filterMap.mpr ⟨q, known, occurs⟩) same
        · rw [silent q passed] at occurs
          cases occurs
      · exact fun q member o occurs =>
          no_stronger o (List.mem_filterMap.mpr ⟨q, member, occurs⟩)
    · rwa [List.filterMap_append, List.filterMap_append, nothing, List.append_nil]

theorem winner?_eq_some (listed : v.Listed) {pairs : List Pair} {f : F} {m : Nat}
    (won : winner? v pairs f = some m) : ∃ p, pairs[m]? = some p ∧ v.field? p.key = some f := by
  obtain ⟨unnamed, -⟩ | ⟨before, p, after, w, -, rfl, winner, own, field, -, -⟩ :=
    ranked_cases listed pairs f
  · rw [unnamed] at won
    cases won
  · rw [winner] at won
    cases won
    exact ⟨p, by simp, field?_eq_some.mpr ⟨w, own, field⟩⟩

theorem exists_winner? (listed : v.Listed) {pairs : List Pair} {f : F} {p : Pair}
    (member : p ∈ pairs) (named : v.field? p.key = some f) : ∃ m, winner? v pairs f = some m := by
  obtain ⟨-, none⟩ | ⟨before, _, _, _, _, -, winner, -⟩ := ranked_cases listed pairs f
  · obtain ⟨o, known⟩ := mem_ranked_of_named member named
    rw [none] at known
    cases known
  · exact ⟨before.length, winner⟩

/-! ### Reading pairs -/

theorem valueOf?_eq_chosen (listed : v.Listed) (pairs : List Pair) :
    valueOf? (pairs.filterMap (Pair.occurrence? v)) = chosen v pairs := by
  funext f
  rw [valueOf?, chosen]
  obtain ⟨unnamed, none⟩ | ⟨before, p, after, w, others, rfl, winner, own, -, sorted, -⟩ :=
    ranked_cases listed pairs f
  · rw [unnamed, none]
    rfl
  · obtain ⟨-, value, -⟩ := occurrence?_eq_some.mp own
    rw [winner, sorted]
    simp [value]

/-- A pair gives its field the value, if no other names that field, and has no say in others. -/
theorem chosen_insert (listed : v.Listed) {before after : List Pair} {p : Pair} {o : Occurrence F}
    (own : p.occurrence? v = some o)
    (absent : ∀ q ∈ before ++ after, v.field? q.key ≠ some o.field) (f : F) :
    chosen v (before ++ p :: after) f =
      if f = o.field then some p.value else chosen v (before ++ after) f := by
  have others : ∀ part, part ⊆ before ++ after →
      (part.filterMap (Pair.occurrence? v)).filter (·.field = o.field) = [] := by
    intro part within
    refine List.filter_eq_nil_iff.mpr fun other member same => ?_
    obtain ⟨q, known, occurs⟩ := List.mem_filterMap.mp member
    exact absent q (within known) (field?_eq_some.mpr ⟨other, occurs, of_decide_eq_true same⟩)
  rw [← valueOf?_eq_chosen listed, ← valueOf?_eq_chosen listed, List.filterMap_append,
    List.filterMap_cons_some own, List.filterMap_append, valueOf?, valueOf?, ranked, ranked,
    List.filter_append, List.filter_append]
  by_cases here : f = o.field
  · obtain ⟨-, value, -⟩ := occurrence?_eq_some.mp own
    subst here
    rw [List.filter_cons_of_pos (by simp), others before (List.subset_append_left _ _),
      others after (List.subset_append_right _ _)]
    simp [value]
  · rw [List.filter_cons_of_neg (by simpa using Ne.symm here), if_neg here]

/-- A field of one name is named by that text only. -/
theorem key_of_field? (listed : v.Listed) {key : Tree} {f : F} {name : String}
    (single : v.namesOf f = [name]) (named : v.field? key = some f) : key = .text name := by
  obtain ⟨o, occurs, rfl⟩ := field?_eq_some (p := ⟨key, .null, false⟩).mp named
  obtain ⟨spelled, -, place, found, -⟩ := occurrence?_eq_some.mp occurs
  have only := List.mem_of_getElem? ((listed o.key o.field place).mp found)
  rw [single, List.mem_singleton] at only
  rw [← only]
  exact spelled

/-- Losing occurrences with another value come from losing pairs with another value. -/
theorem map_filter_occurrence? (f : F) (value : Tree) (report : String → Conflict)
    (pairs : List Pair) :
    (((pairs.filterMap (Pair.occurrence? v)).filter (·.field = f)).filter
        fun o => !o.value.equals value).map (fun o => report o.key) =
      (pairs.filter fun p => v.field? p.key = some f && !p.value.equals value).map
        fun p => report p.key.plain := by
  induction pairs with
  | nil => rfl
  | cons p rest ih =>
    cases occurs : p.occurrence? v with
    | none =>
      have unnamed : v.field? p.key ≠ some f := by
        intro named
        obtain ⟨o, other, -⟩ := field?_eq_some.mp named
        rw [occurs] at other
        cases other
      simpa [List.filterMap_cons, occurs, List.filter_cons, unnamed] using ih
    | some o =>
      obtain ⟨spelled, same, -⟩ := occurrence?_eq_some.mp occurs
      have plain : p.key.plain = o.key := by rw [spelled]; rfl
      have named : v.field? p.key = some o.field := field?_eq_some.mpr ⟨o, occurs, rfl⟩
      by_cases own : o.field = f <;> cases differs : o.value.equals value <;>
        simpa [List.filterMap_cons, occurs, List.filter_cons, named, own, same, differs, plain]
          using ih

theorem conflictsOf_perm (listed : v.Listed) (path : String) (pairs : List Pair) (f : F) :
    (conflictsOf v path (pairs.filterMap (Pair.occurrence? v)) f).Perm
      (clashesOf v path pairs f) := by
  rw [conflictsOf, clashesOf]
  obtain ⟨unnamed, none⟩ | ⟨before, p, after, w, others, rfl, winner, own, rfl, sorted, perm⟩ :=
    ranked_cases listed pairs f
  · rw [unnamed, none]
  · obtain ⟨spelled, value, -⟩ := occurrence?_eq_some.mp own
    have plain : p.key.plain = w.key := by rw [spelled]; rfl
    rw [winner, sorted]
    simp only [List.getElem?_append_right (Nat.le_refl _), Nat.sub_self, List.getElem?_cons_zero,
      Option.toList_some, List.flatMap_singleton, List.eraseIdx_append_of_length_le (Nat.le_refl _),
      List.eraseIdx_cons_zero, value, plain]
    rw [← map_filter_occurrence? w.field w.value
      (fun key => ⟨v.entity, path, v.canonical w.field, w.key, key⟩)]
    exact (perm.filter _).map _

theorem conflicts_perm_clashes (complete : v.Complete) (path : String)
    (pairs : List Pair) :
    (conflicts v path (pairs.filterMap (Pair.occurrence? v))).Perm (clashes v path pairs) := by
  have each : ∀ f ∈ v.names.map Prod.fst,
      (conflictsOf v path (pairs.filterMap (Pair.occurrence? v)) f).Perm
        (clashesOf v path pairs f) := fun f _ =>
    conflictsOf_perm complete.listed path pairs f
  refine List.Perm.trans ?_ (List.Perm.flatMap_left _ each)
  generalize pairs.filterMap (Pair.occurrence? v) = found
  have silent : ∀ f ∈ v.names.map Prod.fst, decide (f ∈ found.map (·.field)) = false →
      conflictsOf v path found f = [] := by
    intro f _ absent
    rw [decide_eq_false_iff_not] at absent
    have none : found.filter (·.field = f) = [] := by
      refine List.filter_eq_nil_iff.mpr fun o member => ?_
      simp only [decide_eq_true_eq]
      exact fun own => absent (List.mem_map.mpr ⟨o, member, own⟩)
    rw [conflictsOf, ranked, none, List.mergeSort_nil]
  have fields : (found.map (·.field)).eraseDups.Perm
      ((v.names.map Prod.fst).filter (· ∈ found.map (·.field))) := by
    rw [List.perm_ext_iff_of_nodup (nodup_eraseDups _) (complete.distinct.filter _)]
    intro f
    simp only [List.mem_eraseDups, List.mem_filter, complete.all f, true_and, decide_eq_true_eq]
  rw [conflicts, ← flatMap_filter_of_eq_nil silent]
  exact fields.flatMap_right _

/-- Pairs are read if their keys name fields. Each field then has the value of its winner, and the
losers that differ are noted. -/
theorem readFields_of_known (complete : v.Complete) {pairs : List Pair}
    (known : ∀ p ∈ pairs, (v.field? p.key).isSome) (path : String) :
    ∃ notes, readFields v path pairs = ⟨notes, .ok (chosen v pairs)⟩ ∧
      notes.Perm (clashes v path pairs) := by
  refine ⟨conflicts v path (pairs.filterMap (Pair.occurrence? v)) ++ [], ?_, ?_⟩
  · rw [readFields, mapM_occurrence_eq_ok known, Noted.lift_ok, Noted.pure_bind,
      ← valueOf?_eq_chosen complete.listed]
    rfl
  · rw [List.append_nil]
    exact conflicts_perm_clashes complete path pairs

/-- Fields that are named once are chosen as they are, and nothing clashes. -/
theorem chosen_of_namedOnce (complete : v.Complete) {pairs : List Pair}
    {entries : List (Tree × Tree)} (laid : pairs.map (fun p => (p.key, p.value)) = entries)
    (once : NamedOnce v entries) :
    chosen v pairs = valueIn v entries ∧ ∀ path, clashes v path pairs = [] := by
  have known : ∀ p ∈ pairs, (v.field? p.key).isSome := fun p member =>
    once.known (p.key, p.value) (laid ▸ List.mem_map_of_mem member)
  have both (path : String) :
      chosen v pairs = valueIn v entries ∧ clashes v path pairs = [] := by
    obtain ⟨notes, read, perm⟩ := readFields_of_known complete known path
    rw [readFields_of_namedOnce laid once] at read
    obtain ⟨rfl, same⟩ := (Noted.mk.injEq ..).mp read
    exact ⟨(Except.ok.inj same).symm, List.nil_perm.mp perm⟩
  exact ⟨(both "").1, fun path => (both path).2⟩

theorem known_of_readFields {path : String} {pairs : List Pair} {fields : F → Option Tree}
    (read : (readFields v path pairs).result = .ok fields) :
    ∀ p ∈ pairs, (v.field? p.key).isSome := by
  by_contra unknown
  obtain ⟨e, failed⟩ := mapM_occurrence_eq_error unknown path
  rw [readFields, failed] at read
  cases read

end SessionPlan.Document
