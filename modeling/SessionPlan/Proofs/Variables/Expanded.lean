import SessionPlan.Proofs.Document.Faults
import SessionPlan.Proofs.Variables.Escape
import Mathlib.Data.List.Forall2

/-! What expansion makes of a whole tree. Keys are expanded too, so that keys that were apart can
become one text, for some variables and not for others. Such a tree is refused; any other keeps its
shape, entry by entry. -/
namespace SessionPlan.Tree

/-- The same tree with all its texts expanded: those that stand alone, those in lists and those in
mappings, be they keys or values. -/
inductive ExpandsTo (v : Variables) : Tree → Tree → Prop
  | text (s : String) : ExpandsTo v (.text s) (.text (SessionPlan.expand v s))
  | other {t : Tree} (bare : t.IsOther) : ExpandsTo v t t
  | list {items out : List Tree} (each : List.Forall₂ (ExpandsTo v) items out) :
    ExpandsTo v (.list items) (.list out)
  | mapping {entries out : List (Tree × Tree)}
      (keys : List.Forall₂ (ExpandsTo v) (entries.map Prod.fst) (out.map Prod.fst))
      (values : List.Forall₂ (ExpandsTo v) (entries.map Prod.snd) (out.map Prod.snd)) :
    ExpandsTo v (.mapping entries) (.mapping out)

/-- Two entries of a mapping, in this order, have keys that are expanded to the same text. -/
def KeysMeet (v : Variables) (first second : String) (entries : List (Tree × Tree)) : Prop :=
  (∃ x y, [(.text first, x), (.text second, y)].Sublist entries) ∧
    SessionPlan.expand v first = SessionPlan.expand v second

/-- Somewhere in the tree there is a mapping with two such entries. -/
def MeetsAt (v : Variables) (first second : String) (t : Tree) : Prop :=
  ∃ entries, Part (.mapping entries) t ∧ KeysMeet v first second entries

/-- The key that an entry gets. -/
def newKey (v : Variables) : Tree → Tree
  | .text s => .text (SessionPlan.expand v s)
  | other => other

/-- The refusal of a tree in which these keys meet. -/
def collision (v : Variables) (first second : String) : Failure :=
  .problem ⟨.keysCollide (.text first) (.text second) (.text (SessionPlan.expand v second)), ""⟩

variable {v : Variables} {first second : String} {items : List Tree} {entries : List (Tree × Tree)}

/-! ### Keys -/

theorem IsOther.expand_eq {t : Tree} (bare : t.IsOther) :
    t.newKey v = t ∧ t.expand v = .ok t := by
  cases t with
  | text s => exact bare.elim
  | list items => exact bare.elim
  | tuple items => exact bare.elim
  | mapping entries => exact bare.elim
  | cycle => exact bare.elim
  | _ => exact ⟨rfl, rfl⟩

/-- A key is always expanded, to a key again. -/
theorem expand_key {key : Tree} (plain : key.isKey = true) (document : key.IsDocument) :
    key.expand v = .ok (key.newKey v) ∧ key.ExpandsTo v (key.newKey v) ∧
      (key.newKey v).isKey = true ∧ (key.newKey v).IsDocument := by
  rcases key_cases plain document with ⟨s, rfl⟩ | bare
  · exact ⟨rfl, .text s, rfl, trivial⟩
  · obtain ⟨same, expanded⟩ := bare.expand_eq (v := v)
    rw [same]
    exact ⟨expanded, .other bare, plain, document⟩

/-- Only texts can come to be the same. -/
theorem texts_of_same_newKey {a b : Tree} (aKey : a.isKey = true ∧ a.IsDocument)
    (bKey : b.isKey = true ∧ b.IsDocument) (apart : same a b = false)
    (met : same (a.newKey v) (b.newKey v) = true) :
    ∃ first second, a = .text first ∧ b = .text second ∧
      SessionPlan.expand v first = SessionPlan.expand v second := by
  rcases key_cases aKey.1 aKey.2 with ⟨s, rfl⟩ | aBare
  · rcases key_cases bKey.1 bKey.2 with ⟨t, rfl⟩ | bBare
    · rw [newKey, newKey, same_text, decide_eq_true_iff, text?, Option.some.injEq] at met
      exact ⟨s, t, rfl, rfl, met.symm⟩
    · rw [(bBare.expand_eq (v := v)).1, newKey, same_text, bBare.escape_eq.2] at met
      cases met
  · have aSame := (aBare.expand_eq (v := v)).1
    rcases key_cases bKey.1 bKey.2 with ⟨t, rfl⟩ | bBare
    · rw [aSame, newKey, same_of_text, aBare.escape_eq.2] at met
      cases met
    · rw [aSame, (bBare.expand_eq (v := v)).1, apart] at met
      cases met

/-! ### Where keys meet -/

theorem keysMeet_cons {key value : Tree} {rest : List (Tree × Tree)} :
    KeysMeet v first second ((key, value) :: rest) ↔
      (key = .text first ∧ .text second ∈ rest.map Prod.fst ∧
        SessionPlan.expand v first = SessionPlan.expand v second) ∨
      KeysMeet v first second rest := by
  constructor
  · rintro ⟨⟨x, y, inside⟩, equal⟩
    rcases List.sublist_cons_iff.mp inside with later | ⟨others, eq, later⟩
    · exact .inr ⟨⟨x, y, later⟩, equal⟩
    · cases eq
      have known := List.singleton_sublist.mp later
      exact .inl ⟨rfl, List.mem_map_of_mem known, equal⟩
  · rintro (⟨rfl, known, equal⟩ | ⟨⟨x, y, later⟩, equal⟩)
    · obtain ⟨⟨_, y⟩, member, rfl⟩ := List.mem_map.mp known
      exact ⟨⟨value, y, (List.singleton_sublist.mpr member).cons_cons _⟩, equal⟩
    · exact ⟨⟨x, y, later.cons _⟩, equal⟩

theorem keysMeet_nil : ¬ KeysMeet v first second [] := by
  rintro ⟨⟨_, _, ⟨⟩⟩, _⟩

theorem not_meetsAt_text (s : String) : ¬ (Tree.text s).MeetsAt v first second := by
  rintro ⟨_, ⟨⟩, _⟩

theorem IsOther.not_meetsAt {t : Tree} (bare : t.IsOther) : ¬ t.MeetsAt v first second := by
  rintro ⟨_, inside, _⟩
  cases inside <;> exact bare

theorem meetsAt_list :
    (Tree.list items).MeetsAt v first second ↔ ∃ x ∈ items, x.MeetsAt v first second := by
  constructor
  · rintro ⟨entries, inside, meet⟩
    cases inside with
    | item member within => exact ⟨_, member, entries, within, meet⟩
  · rintro ⟨x, member, entries, within, meet⟩
    exact ⟨entries, .item member within, meet⟩

theorem meetsAt_mapping :
    (Tree.mapping entries).MeetsAt v first second ↔
      (∃ e ∈ entries, e.2.MeetsAt v first second) ∨ KeysMeet v first second entries := by
  constructor
  · rintro ⟨found, inside, meet⟩
    cases inside with
    | here => exact .inr meet
    | entry member within => exact .inl ⟨_, member, found, within, meet⟩
  · rintro (⟨e, member, found, within, meet⟩ | meet)
    · exact ⟨found, .entry member within, meet⟩
    · exact ⟨entries, .here, meet⟩

/-- Keys meet in a value, among the entries, or there is one among those `seen` before. -/
def MeetsAfter (v : Variables) (seen entries : List (Tree × Tree)) (first second : String) : Prop :=
  (∃ e ∈ entries, e.2.MeetsAt v first second) ∨ KeysMeet v first second entries ∨
    (.text first ∈ seen.map Prod.snd ∧ .text second ∈ entries.map Prod.fst ∧
      SessionPlan.expand v first = SessionPlan.expand v second)

theorem meetsAfter_cons {seen rest : List (Tree × Tree)} {key value : Tree} :
    MeetsAfter v seen ((key, value) :: rest) first second ↔
      value.MeetsAt v first second ∨
      (.text first ∈ seen.map Prod.snd ∧ key = .text second ∧
        SessionPlan.expand v first = SessionPlan.expand v second) ∨
      MeetsAfter v ((key.newKey v, key) :: seen) rest first second := by
  unfold MeetsAfter
  rw [List.exists_mem_cons_iff, keysMeet_cons, List.map_cons, List.map_cons, List.mem_cons,
    List.mem_cons]
  constructor
  · rintro ((inside | inside) | (⟨rfl, known, equal⟩ | meet) | ⟨old, rfl | known, equal⟩)
    · exact .inl inside
    · exact .inr (.inr (.inl inside))
    · exact .inr (.inr (.inr (.inr ⟨.inl rfl, known, equal⟩)))
    · exact .inr (.inr (.inr (.inl meet)))
    · exact .inr (.inl ⟨old, rfl, equal⟩)
    · exact .inr (.inr (.inr (.inr ⟨.inr old, known, equal⟩)))
  · rintro (inside | ⟨old, rfl, equal⟩ | inside | meet | ⟨rfl | old, known, equal⟩)
    · exact .inl (.inl inside)
    · exact .inr (.inr ⟨old, .inl rfl, equal⟩)
    · exact .inl (.inr inside)
    · exact .inr (.inl (.inr meet))
    · exact .inr (.inl (.inl ⟨rfl, known, equal⟩))
    · exact .inr (.inr ⟨old, .inr known, equal⟩)

/-! ### How expansion ends -/

/-- A refusal that two meeting keys account for; or nothing meets, and the answer is as it should
be. -/
inductive Ends (v : Variables) (meets : String → String → Prop) (kept : α → Prop) :
    Except Failure α → Prop
  | refused {first second : String} (met : meets first second) :
    Ends v meets kept (.error (collision v first second))
  | answered {a : α} (apart : ∀ first second, ¬ meets first second) (good : kept a) :
    Ends v meets kept (.ok a)

/-- A refusal of the first step is one of the whole. -/
theorem Ends.bind {partly meets : String → String → Prop} {made : α → Prop} {kept : β → Prop}
    {x : Except Failure α} {f : α → Except Failure β} (ends : Ends v partly made x)
    (ofPart : ∀ first second, partly first second → meets first second)
    (next : ∀ a, (∀ first second, ¬ partly first second) → made a → Ends v meets kept (f a)) :
    Ends v meets kept (x >>= f) := by
  cases ends with
  | refused met => exact .refused (ofPart _ _ met)
  | answered apart good => exact next _ apart good

/-- Keys that were read before: each stands with its spelling, which is none of those to come. -/
def AllSeen (v : Variables) (seen entries : List (Tree × Tree)) : Prop :=
  ∀ s ∈ seen, s.1 = s.2.newKey v ∧ (s.2.isKey = true ∧ s.2.IsDocument) ∧
    ∀ e ∈ entries, same s.2 e.1 = false

theorem AllSeen.cons {seen rest : List (Tree × Tree)} {key value : Tree}
    (known : AllSeen v seen ((key, value) :: rest)) (plain : key.isKey = true ∧ key.IsDocument)
    (apart : ∀ e ∈ rest, same key e.1 = false) :
    AllSeen v ((key.newKey v, key) :: seen) rest := by
  refine List.forall_mem_cons.mpr ⟨⟨rfl, plain, apart⟩, fun s member => ?_⟩
  obtain ⟨new, old, others⟩ := known s member
  exact ⟨new, old, fun e later => others e (List.mem_cons_of_mem _ later)⟩

/-- The new key is found among those before just if it is one that they meet. -/
theorem AllSeen.lookup {seen rest : List (Tree × Tree)} {key value : Tree}
    (known : AllSeen v seen ((key, value) :: rest)) (plain : key.isKey = true ∧ key.IsDocument) :
    (∃ first second new, key = .text second ∧ .text first ∈ seen.map Prod.snd ∧
      SessionPlan.expand v first = SessionPlan.expand v second ∧
      lookupKey (key.newKey v) seen = some (new, .text first)) ∨
    lookupKey (key.newKey v) seen = none ∧ ∀ first second, .text first ∈ seen.map Prod.snd →
      key = .text second → SessionPlan.expand v first ≠ SessionPlan.expand v second := by
  cases found : lookupKey (key.newKey v) seen with
  | some entry =>
    have member := List.mem_of_find?_eq_some found
    have met := List.find?_some (p := fun other : Tree × Tree => same other.1 (key.newKey v)) found
    obtain ⟨new, oldPlain, apart⟩ := known entry member
    rw [new] at met
    obtain ⟨first, second, old, rfl, equal⟩ :=
      texts_of_same_newKey oldPlain plain (apart _ List.mem_cons_self) met
    have spelling : .text first ∈ seen.map Prod.snd := List.mem_map.mpr ⟨entry, member, old⟩
    exact .inl ⟨first, second, entry.1, rfl, spelling, equal, by rw [← old]⟩
  | none =>
    refine .inr ⟨rfl, fun first second old => ?_⟩
    rintro rfl equal
    obtain ⟨entry, member, old⟩ := List.mem_map.mp old
    have new : entry.1 = .text (SessionPlan.expand v first) := by
      rw [(known entry member).1, old, newKey]
    have differ := List.find?_eq_none.mp found entry member
    exact differ (by simp [new, newKey, same_text, text?, equal])

/-- What becomes of the entries of a mapping: as many, with the keys that they get. -/
structure EntriesKept (v : Variables) (entries out : List (Tree × Tree)) : Prop where
  keys : out.map Prod.fst = entries.map fun e => e.1.newKey v
  values : List.Forall₂ (ExpandsTo v) (entries.map Prod.snd) (out.map Prod.snd)
  documents : HaveDocuments out

/-- Keys that were apart, and do not meet, are apart afterwards. -/
theorem pairwise_newKey (plain : HaveDocuments entries)
    (distinct : entries.Pairwise fun first later => same first.1 later.1 = false)
    (apart : ∀ first second, ¬ KeysMeet v first second entries) :
    (entries.map fun e => e.1.newKey v).Pairwise fun first later => same first later = false := by
  rw [List.pairwise_map, List.pairwise_iff_forall_sublist]
  rintro ⟨a, x⟩ ⟨b, y⟩ inside
  have differ := List.pairwise_iff_forall_sublist.mp distinct inside
  have aPlain := plain.key _ (inside.subset List.mem_cons_self)
  have bPlain := plain.key _ (inside.subset (List.mem_cons_of_mem _ List.mem_cons_self))
  refine Bool.eq_false_iff.mpr fun met => ?_
  obtain ⟨first, second, rfl, rfl, equal⟩ := texts_of_same_newKey aPlain bPlain differ met
  exact apart first second ⟨⟨x, y, inside⟩, equal⟩

theorem EntriesKept.mapping {out : List (Tree × Tree)} (kept : EntriesKept v entries out)
    (plain : HaveDocuments entries)
    (distinct : entries.Pairwise fun first later => same first.1 later.1 = false)
    (apart : ∀ first second, ¬ KeysMeet v first second entries) :
    (Tree.mapping entries).ExpandsTo v (.mapping out) ∧ (Tree.mapping out).IsDocument := by
  have keys : List.Forall₂ (ExpandsTo v) (entries.map Prod.fst) (out.map Prod.fst) := by
    rw [kept.keys, List.forall₂_map_left_iff, List.forall₂_map_right_iff]
    refine List.forall₂_same.mpr fun e member => ?_
    have isPlain := plain.key e member
    exact (expand_key isPlain.1 isPlain.2).2.1
  have outApart := pairwise_newKey plain distinct apart
  rw [← kept.keys, List.pairwise_map] at outApart
  simp only [IsDocument]
  exact ⟨.mapping keys kept.values, kept.documents, outApart⟩

mutual

/-- By the shape of the tree. In a mapping the keys so far go along, so that each new key is held
against all of them. -/
theorem expand_ends (v : Variables) : ∀ t : Tree, t.IsDocument →
    Ends v (t.MeetsAt v) (fun u => t.ExpandsTo v u ∧ u.IsDocument) (t.expand v)
  | .text s, _ => .answered (fun _ _ => not_meetsAt_text s) ⟨.text s, trivial⟩
  | .list items, h => by
    simp only [IsDocument] at h
    rw [expand]
    refine (expandItems_ends v items h).bind (fun _ _ => meetsAt_list.mpr) fun out apart good => ?_
    refine .answered (fun first second met => apart first second (meetsAt_list.mp met)) ?_
    simp only [IsDocument]
    exact ⟨.list good.1, good.2⟩
  | .mapping entries, h => by
    simp only [IsDocument] at h
    have nothingSeen : ∀ first second, MeetsAfter v [] entries first second ↔
        (Tree.mapping entries).MeetsAt v first second := by
      simp [MeetsAfter, meetsAt_mapping]
    rw [expand]
    refine (expandEntries_ends v entries [] h.1 h.2 (by simp [AllSeen])).bind
      (fun _ _ => (nothingSeen _ _).mp) fun out apart kept => ?_
    have whole : ∀ first second, ¬ (Tree.mapping entries).MeetsAt v first second :=
      fun first second met => apart first second ((nothingSeen first second).mpr met)
    exact .answered whole (kept.mapping h.1 h.2 fun first second met =>
      whole first second (meetsAt_mapping.mpr (.inr met)))
  | .null, _ | .flag _, _ | .int _, _ | .real _, _ | .nan _, _ | .set _, _ | .bytes _, _
  | .date _, _ | .moment _, _ | .clock _, _ =>
    .answered (fun _ _ => IsOther.not_meetsAt trivial) ⟨.other trivial, trivial⟩

theorem expandItems_ends (v : Variables) : ∀ items, AreDocuments items →
    Ends v (fun first second => ∃ x ∈ items, x.MeetsAt v first second)
      (fun out => List.Forall₂ (ExpandsTo v) items out ∧ AreDocuments out) (expandItems v items)
  | [], _ => .answered (by simp) ⟨.nil, trivial⟩
  | x :: xs, h => by
    simp only [AreDocuments] at h
    rw [expandItems]
    refine (expand_ends v x h.1).bind (fun _ _ met => ⟨x, List.mem_cons_self, met⟩)
      fun y apart good => (expandItems_ends v xs h.2).bind ?_ fun ys others rest => ?_
    · rintro _ _ ⟨z, member, met⟩
      exact ⟨z, List.mem_cons_of_mem _ member, met⟩
    · refine .answered (fun first second met => ?_) ⟨.cons good.1 rest.1, good.2, rest.2⟩
      rcases (List.exists_mem_cons_iff _ _ _).mp met with met | met
      · exact apart first second met
      · exact others first second met

theorem expandEntries_ends (v : Variables) : ∀ entries seen, HaveDocuments entries →
    (entries.Pairwise fun first later => same first.1 later.1 = false) →
    AllSeen v seen entries →
    Ends v (MeetsAfter v seen entries) (EntriesKept v entries) (expandEntries v seen entries)
  | [], seen, _, _, _ => .answered (by simp [MeetsAfter, KeysMeet]) ⟨rfl, .nil, trivial⟩
  | (key, value) :: rest, seen, h, distinct, known => by
    simp only [HaveDocuments] at h
    obtain ⟨apart, distinct⟩ := List.pairwise_cons.mp distinct
    have plain : key.isKey = true ∧ key.IsDocument := ⟨h.1.2, h.1.1⟩
    obtain ⟨expanded, -, newPlain, newDocument⟩ := expand_key (v := v) plain.1 plain.2
    have later := expandEntries_ends v rest _ h.2.2 distinct (known.cons plain apart)
    rw [expandEntries, expanded, ok_bind]
    simp only [newPlain, Bool.not_true, Bool.false_eq_true, if_false]
    rcases known.lookup plain with ⟨first, second, new, rfl, old, equal, found⟩ | ⟨unknown, fresh⟩
    · rw [found]
      exact .refused (meetsAfter_cons.mpr (.inr (.inl ⟨old, rfl, equal⟩)))
    rw [unknown]
    refine (expand_ends v value h.2.1).bind (fun _ _ met => meetsAfter_cons.mpr (.inl met))
      fun newValue valueApart good => later.bind
        (fun _ _ met => meetsAfter_cons.mpr (.inr (.inr met))) fun out restApart kept => ?_
    refine .answered (fun first second met => ?_)
      ⟨congrArg _ kept.keys, .cons good.1 kept.values, ⟨newDocument, newPlain⟩, good.2,
        kept.documents⟩
    rcases meetsAfter_cons.mp met with met | ⟨old, eq, equal⟩ | met
    · exact valueApart first second met
    · exact fresh first second old eq equal
    · exact restApart first second met

end

/-- Expansion refuses a document just if two keys of one of its mappings come to be one text, and
names two such keys. Any other document it gives back in its shape: lists and mappings keep their
length and their order, texts are expanded, and the rest is as it was. The keys stay apart. -/
theorem expand_merges_nothing (v : Variables) {t : Tree} (document : t.IsDocument) :
    ((∃ problem : Problem, problem.cause.isShape = true ∧
        t.expand v = .error (.problem problem)) ↔
      ∃ first second, t.MeetsAt v first second) ∧
    (∀ failure, t.expand v = .error failure →
      ∃ first second, t.MeetsAt v first second ∧ failure = collision v first second) ∧
    ((∀ first second, ¬ t.MeetsAt v first second) →
      ∃ u, t.expand v = .ok u ∧ t.ExpandsTo v u ∧ u.IsDocument) := by
  have ends := expand_ends v t document
  generalize t.expand v = result at ends
  cases ends with
  | refused met =>
    refine ⟨⟨fun _ => ⟨_, _, met⟩, fun _ => ⟨_, rfl, rfl⟩⟩, ?_, fun apart => absurd met (apart _ _)⟩
    rintro _ ⟨⟩
    exact ⟨_, _, met, rfl⟩
  | answered apart good =>
    refine ⟨⟨?_, ?_⟩, ?_, fun _ => ⟨_, rfl, good⟩⟩
    · rintro ⟨_, _, ⟨⟩⟩
    · rintro ⟨first, second, met⟩
      exact absurd met (apart first second)
    · rintro _ ⟨⟩

/-- Keys in a mapping of a list, one of them a reference, and a number and nothing beside them. -/
def crossedKeys : List (Tree × Tree) :=
  [(.text "$A", .int 1), (.int 1, .text "$A"), (.null, .null), (.text "b", .list [])]

def crossedDocument : Tree := .mapping [(.text "windows", .list [.mapping crossedKeys])]

theorem isDocument_crossedDocument : crossedDocument.IsDocument := by
  simp [crossedDocument, crossedKeys, IsDocument, AreDocuments, HaveDocuments, isKey, same,
    sameLeaf, integer?]

theorem crossedDocument_meets : crossedDocument.MeetsAt ⟨[("A", "b")]⟩ "$A" "b" := by
  refine ⟨crossedKeys, .entry List.mem_cons_self (.item List.mem_cons_self .here), ?_, by decide⟩
  exact ⟨.int 1, .list [], by simp [crossedKeys]⟩

/-- With another value of the variable nothing meets. -/
theorem crossedDocument_apart (first second : String) :
    ¬ crossedDocument.MeetsAt ⟨[("A", "c")]⟩ first second := by
  have differ : SessionPlan.expand ⟨[("A", "c")]⟩ "$A" ≠ SessionPlan.expand ⟨[("A", "c")]⟩ "b" := by
    decide
  have number : ¬ (Tree.int 1).MeetsAt ⟨[("A", "c")]⟩ first second := IsOther.not_meetsAt trivial
  have nothing : ¬ Tree.null.MeetsAt ⟨[("A", "c")]⟩ first second := IsOther.not_meetsAt trivial
  suffices onlyPair : "$A" = first → second = "b" →
      SessionPlan.expand ⟨[("A", "c")]⟩ first ≠ SessionPlan.expand ⟨[("A", "c")]⟩ second by
    simpa [crossedDocument, crossedKeys, meetsAt_mapping, meetsAt_list, keysMeet_cons,
      keysMeet_nil, not_meetsAt_text, number, nothing] using onlyPair
  rintro rfl rfl
  exact differ

/-- The keys meet for one value of the variable and not for another. -/
theorem expand_merges_nothing_crossed :
    crossedDocument.IsDocument ∧
    (∃ problem : Problem, problem.cause.isShape = true ∧
      crossedDocument.expand ⟨[("A", "b")]⟩ = .error (.problem problem)) ∧
    ∃ u, crossedDocument.expand ⟨[("A", "c")]⟩ = .ok u ∧
      crossedDocument.ExpandsTo ⟨[("A", "c")]⟩ u ∧ u.IsDocument := by
  refine ⟨isDocument_crossedDocument, ?_, ?_⟩
  · exact (expand_merges_nothing ⟨[("A", "b")]⟩ isDocument_crossedDocument).1.mpr
      ⟨"$A", "b", crossedDocument_meets⟩
  · exact (expand_merges_nothing ⟨[("A", "c")]⟩ isDocument_crossedDocument).2.2
      crossedDocument_apart

end SessionPlan.Tree
