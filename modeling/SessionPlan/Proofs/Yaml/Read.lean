import SessionPlan.Proofs.Variables.Plain
import SessionPlan.Proofs.Yaml.Composed
import SessionPlan.Proofs.Yaml.Graph
import SessionPlan.Yaml.Value

/-! What stops nodes from becoming a tree. Flaws are reported with their line; what goes past them
is a scalar whose text the conversion to its type does not take, and a collection under the tag of
a scalar. A tree that is made has plain keys. -/
namespace SessionPlan.Yaml
open SessionPlan.Text

/-- The conversion of a text to a scalar type fails. -/
def Unconvertible (name text : String) (fault : Fault) : Prop :=
  name = "bool" ∧ boolValue text = .error (.fault fault) ∨
  name = "int" ∧ integerValue text = .error (.fault fault) ∨
  name = "float" ∧ (∃ source, floatValue source text = .error (.fault fault)) ∨
  name = "timestamp" ∧ timestampValue text = .error (.fault fault)

/-- What stops a node: its text, or that of the scalar which it leads to as a mapping, is not what
its tag says; or it is a mapping that leads to no scalar, or one where a time should be. -/
inductive Unreadable (g : Graph) : Fault → Prop
  | text {n m : Nat} {name text : String} {fault : Fault} (tagged : g.hasTag name n = true)
      (leads : m = n ∨ g.IsMapping n) (content : g.content m = .scalar text)
      (fails : Unconvertible name text fault) : Unreadable g fault
  | mapping {n : Nat} {name : String} {fault : Fault} (scalar : name ∈ "value" :: scalarTypes)
      (tagged : g.hasTag name n = true) (mapping : g.IsMapping n)
      (kind : fault = .endless ∨ fault = .kindMismatch) : Unreadable g fault

theorem Unreadable.of_keeps {g h : Graph} (kept : g.Keeps h) {fault : Fault}
    (stops : Unreadable h fault) : Unreadable g fault := by
  cases stops with
  | text tagged leads content fails =>
    rename_i n m name text
    rcases kept.hasTag tagged with same | ⟨str, _⟩
    · exact .text same (leads.imp id (kept.mapping n).mp) ((kept.scalar m text).mp content) fails
    · simp [Unconvertible, str] at fails
  | mapping scalar tagged mapping kind =>
    rename_i n name
    rcases kept.hasTag tagged with same | ⟨_, value⟩
    · exact .mapping scalar same ((kept.mapping n).mp mapping) kind
    · exact .mapping List.mem_cons_self value ((kept.mapping n).mp mapping) kind

/-- A scalar's text is that of some scalar, and only a mapping leads to another node. -/
theorem scalarText_yields {g : Graph} (fuel n : Nat) :
    Yields (Error.Among fun fault => fault = .endless)
      (fun text => ∃ m, g.content m = .scalar text ∧ (m = n ∨ g.IsMapping n))
      (scalarText g fuel n) := by
  induction fuel generalizing n with
  | zero => exact .error rfl
  | succ fuel ih =>
    unfold scalarText
    split
    · rename_i text content
      exact .ok ⟨n, content, .inl rfl⟩
    · rename_i entries content
      split
      · refine (ih _).mono (fun _ => id) ?_
        rintro text ⟨m, found, _⟩
        exact ⟨m, found, .inr ⟨entries, content⟩⟩
      · exact .error trivial
    · exact .error trivial

/-- With fuel left, only a mapping leads on and on. -/
theorem scalarText_endless {g : Graph} {fuel n : Nat} {fault : Fault}
    (fails : scalarText g (fuel + 1) n = .error (.fault fault)) :
    fault = .endless ∧ g.IsMapping n := by
  refine ⟨(scalarText_yields (fuel + 1) n).fails _ fails, ?_⟩
  unfold scalarText at fails
  split at fails
  · cases fails
  · rename_i entries content
    exact ⟨entries, content⟩
  · cases fails

theorem binaryTree_yields {faults : Fault → Prop} (g : Graph) (n : Nat) (text : String) :
    Yields (Error.Among faults) Tree.IsPlainKey (binaryTree g n text) := by
  unfold binaryTree
  split
  · exact .ok trivial
  · exact .error trivial

theorem floatValue_plain (source : Nat) (text : String) :
    Yields (fun _ => True) Tree.IsPlainKey (floatValue source text) := by
  refine (Yields.whatever _).bind fun body _ => .ite (.ok trivial) ?_
  refine (Yields.whatever _).bind fun x _ => .ok ?_
  unfold Tree.ofFloat
  split <;> trivial

theorem timestampValue_plain (text : String) :
    Yields (fun _ => True) Tree.IsPlainKey (timestampValue text) := by
  unfold timestampValue
  split
  · rename_i t _
    have ending (date : Calendar.Date) (clock : Calendar.Clock) (offset : Option Int) :
        Yields (fun _ => True) Tree.IsPlainKey (checked date.flaw? >>= fun _ =>
          checked clock.flaw? >>= fun _ => pure (.moment ⟨date, clock, offset⟩)) :=
      (Yields.whatever _).bind fun _ _ => (Yields.whatever _).bind fun _ _ => .ok trivial
    dsimp only
    split
    · exact (Yields.whatever _).bind fun _ _ => .ok trivial
    · split
      · rw [pure_bind]
        exact ending _ _ _
      · rw [pure_bind]
        exact ending _ _ _
      · exact (Yields.whatever _).bind fun _ _ => ending _ _ _
  · exact .error trivial

/-- What a node without parts is read as can be a key. -/
theorem leafTree_yields (g : Graph) (n : Nat) :
    Yields (Error.Among (Unreadable g)) Tree.IsPlainKey (leafTree g n) := by
  unfold leafTree
  split
  · exact .error trivial
  · rename_i name found
    have tagged : g.hasTag name n = true := by
      simpa using List.find?_some found
    have scalar : name ∈ scalarTypes := List.mem_of_find?_eq_some found
    have text : Yields (Error.Among (Unreadable g))
        (fun text => ∃ m, g.content m = .scalar text ∧ (m = n ∨ g.IsMapping n))
        (scalarText g (g.size + 1) n) := by
      refine ⟨fun e failed => ?_, (scalarText_yields _ n).gives⟩
      cases e with
      | flaw _ _ => trivial
      | fault fault =>
        obtain ⟨endless, mapping⟩ := scalarText_endless failed
        exact .mapping (List.mem_cons_of_mem _ scalar) tagged mapping (.inl endless)
    refine text.bind fun text ⟨m, content, leads⟩ => ?_
    have converted {α : Type} {x : Except Error α}
        (fails : ∀ fault, x = .error (.fault fault) → Unconvertible name text fault) :
        FailsOnly (Error.Among (Unreadable g)) x := by
      intro e failed
      cases e with
      | flaw _ _ => trivial
      | fault fault => exact .text tagged leads content (fails fault failed)
    split
    · exact .ok trivial
    · exact Yields.bind ⟨converted fun _ fails => .inl ⟨rfl, fails⟩, fun _ _ => trivial⟩
        fun _ (_ : True) => .ok trivial
    · exact Yields.bind ⟨converted fun _ fails => .inr (.inl ⟨rfl, fails⟩), fun _ _ => trivial⟩
        fun _ (_ : True) => .ok trivial
    · exact ⟨converted fun _ fails => .inr (.inr (.inl ⟨rfl, _, fails⟩)),
        (floatValue_plain _ _).gives⟩
    · exact binaryTree_yields g n text
    · unfold timestampTree
      split
      · rename_i own content
        refine ⟨fun e failed => ?_, (timestampValue_plain own).gives⟩
        cases e with
        | flaw _ _ => trivial
        | fault fault =>
          exact .text tagged (.inl rfl) content (.inr (.inr (.inr ⟨rfl, failed⟩)))
      · rename_i other
        refine .error (.mapping (List.mem_cons_of_mem _ scalar) tagged ?_ (.inr rfl))
        rcases leads with rfl | mapping
        · exact absurd content (other _)
        · exact mapping
    · exact .ok trivial

/-! ### Collections -/

/-- Entries of different plain keys. -/
def Keyed (entries : List (Tree × α)) : Prop :=
  (∀ entry ∈ entries, entry.1.IsPlainKey) ∧
    entries.Pairwise fun first later => Tree.same first.1 later.1 = false

/-- The keys that have been read are plain and different. -/
def Reading.IsPlain : Reading → Prop
  | .leaf value => value.IsPlainKey
  | .mapping entries => Keyed entries
  | _ => True

namespace Reader

/-- A state of reading that began with the graph `g`. -/
structure Sound (g : Graph) (r : Reader) : Prop where
  keeps : g.Keeps r.graph
  plain : ∀ n reading, r.reading? n = some reading → reading.IsPlain

variable {g : Graph} {r : Reader}

/-- What is read stops only where a node is unreadable, and it goes on from such a state. -/
abbrev Reads (g : Graph) (x : Except Error (α × Reader)) : Prop :=
  Yields (Error.Among (Unreadable g)) (fun found => found.2.Sound g) x

theorem reading?_record (r : Reader) (n m : Nat) (reading : Reading) :
    (r.record n reading).reading? m =
      if n = m ∧ n < r.readings.size then some reading else r.reading? m := by
  unfold record reading?
  simp only [Array.getD_eq_getD_getElem?, Array.getElem?_setIfInBounds]
  by_cases here : n = m
  · subst here
    by_cases inside : n < r.readings.size
    · simp [inside]
    · simp [inside]
  · simp [here]

theorem Sound.record (sound : r.Sound g) (n : Nat) (reading : Reading) (plain : reading.IsPlain) :
    (r.record n reading).Sound g := by
  refine ⟨sound.keeps, fun m other known => ?_⟩
  rw [reading?_record] at known
  split at known
  · cases known
    exact plain
  · exact sound.plain m other known

theorem Sound.start (g : Graph) : (Reader.start g).Sound g := by
  refine ⟨.refl g, fun n reading known => ?_⟩
  simp only [Reader.start, reading?, Array.getD_eq_getD_getElem?, Array.getElem?_replicate] at known
  split at known <;> cases known

theorem isPlain_of_collections {tag : String} {empty : Reading}
    (known : collections.lookup tag = some empty) : empty.IsPlain := by
  unfold collections at known
  simp only [List.lookup_cons, List.lookup_nil] at known
  repeat' split at known
  all_goals cases known <;> simp [Reading.IsPlain, Keyed]

theorem read_yields (sound : r.Sound g) (n : Nat) :
    Yields (Error.Among (Unreadable g)) (Sound g) (r.read n) := by
  unfold read
  split
  · exact .ok sound
  · rename_i empty _ known
    have recorded := sound.record n empty (isPlain_of_collections known)
    exact .ok ⟨recorded.keeps, recorded.plain⟩
  · refine ((leafTree_yields r.graph n).mono ?_ fun _ => id).bind fun value plain =>
      .ok (sound.record n (.leaf value) plain)
    intro e among
    cases e with
    | flaw _ _ => trivial
    | fault fault => exact Unreadable.of_keeps sound.keeps among

theorem readAll_yields (sound : r.Sound g) (ns : List Nat) :
    Yields (Error.Among (Unreadable g)) (Sound g) (r.readAll ns) :=
  Yields.foldlM sound fun _ n sound => read_yields sound n

theorem readKey_yields (sound : r.Sound g) (n : Nat) :
    Yields (Error.Among (Unreadable g)) (fun found => found.1.IsPlainKey ∧ found.2.Sound g)
      (r.readKey n) := by
  refine (read_yields sound n).bind fun r sound => ?_
  split
  · rename_i key known
    exact .ok ⟨sound.plain n _ known, sound⟩
  · exact .error trivial

/-- Entries of different plain keys, and a state that is sound. -/
def EntriesSound (g : Graph) (found : List (Tree × Nat) × Reader) : Prop :=
  Keyed found.1 ∧ found.2.Sound g

theorem readEntries_yields (sound : r.Sound g) {found : List (Tree × Nat)}
    (keyed : Keyed found) (entries : List (Nat × Nat)) :
    Yields (Error.Among (Unreadable g)) (EntriesSound g) (r.readEntries found entries) := by
  induction entries generalizing r found with
  | nil => exact .ok ⟨keyed, sound⟩
  | cons entry rest ih =>
    refine (readKey_yields sound entry.1).bind fun key ⟨plainKey, sound⟩ => ?_
    refine (read_yields sound entry.2).bind fun r sound => ?_
    have plain : ∀ other ∈ Tree.insert key.1 entry.2 found, other.1.IsPlainKey :=
      Tree.forall_mem_insert plainKey fun other member =>
        ⟨keyed.1 other member, keyed.1 other member⟩
    exact ih sound ⟨plain, Tree.pairwise_insert keyed.2⟩

theorem readMapping_yields (sound : r.Sound g) (n : Nat) :
    Yields (Error.Among (Unreadable g)) (EntriesSound g) (r.readMapping n) := by
  unfold readMapping
  split
  · refine (Graph.merged_keeps r.graph n).bind fun h kept => ?_
    have merged : ({ r with graph := h } : Reader).Sound g :=
      ⟨sound.keeps.trans kept, sound.plain⟩
    exact readEntries_yields merged ⟨by simp, .nil⟩ _
  · exact .error trivial

theorem readSingles_yields (sound : r.Sound g) (items : List Nat) :
    Reads g (r.readSingles items) := by
  induction items generalizing r with
  | nil => exact .ok sound
  | cons item rest ih =>
    unfold readSingles
    split
    · exact (readAll_yields sound _).bind fun _ sound => (ih sound).bind fun _ sound => .ok sound
    · exact .error trivial
    · exact .error trivial

theorem fill_yields (sound : r.Sound g) (n : Nat) :
    Yields (Error.Among (Unreadable g)) (Sound g) (r.fill n) := by
  unfold fill
  split
  · exact (readAll_yields sound _).bind fun _ sound => .ok (sound.record n (.list _) trivial)
  · exact .error trivial
  · exact (readMapping_yields sound n).bind fun found h =>
      .ok (h.2.record n (.mapping found.1) h.1)
  · exact (readMapping_yields sound n).bind fun _ h => .ok (h.2.record n (.set _) trivial)
  · exact (readSingles_yields sound _).bind fun _ sound => .ok (sound.record n (.pairs _) trivial)
  · exact .error trivial
  · exact .ok sound

theorem run_yields (sound : r.Sound g) (fuel : Nat) :
    Yields (Error.Among (Unreadable g)) (Sound g) (run fuel r) := by
  induction fuel generalizing r with
  | zero => exact .ok sound
  | succ fuel ih =>
    unfold run
    split
    · exact .ok sound
    · rename_i n rest _
      have others : ({ r with waiting := rest } : Reader).Sound g := ⟨sound.keeps, sound.plain⟩
      exact (fill_yields others n).bind fun _ sound => ih sound

theorem treeOf_keysPlain (sound : r.Sound g) (fuel : Nat) (path : List Nat) (n : Nat) :
    (r.treeOf fuel path n).KeysPlain := by
  induction fuel generalizing path n with
  | zero => trivial
  | succ fuel ih =>
    unfold treeOf
    split
    · trivial
    · dsimp only
      split
      · trivial
      · rename_i value known
        exact (sound.plain n _ known).keysPlain
      · refine Tree.allKeysPlain_iff.mpr fun item member => ?_
        obtain ⟨m, -, rfl⟩ := List.mem_map.mp member
        exact ih _ m
      · rename_i entries known
        obtain ⟨plain, apart⟩ := sound.plain n _ known
        refine ⟨Tree.entryKeysPlain_iff.mpr fun entry member => ?_, List.pairwise_map.mpr apart⟩
        obtain ⟨source, known, rfl⟩ := List.mem_map.mp member
        exact ⟨plain source known, ih _ source.2⟩
      · trivial
      · refine Tree.allKeysPlain_iff.mpr fun item member => ?_
        obtain ⟨source, -, rfl⟩ := List.mem_map.mp member
        exact Tree.allKeysPlain_iff.mpr (by simp [ih])

end Reader

/-- What goes past the guards of the reader of a text. -/
inductive Escapes (text : String) (fault : Fault) : Prop
  | token (unscanned : Unscanned text.toList fault)
  | node {root : Nat} {g : Graph} (composed : compose text.toList = .ok (some (root, g)))
    (unreadable : Unreadable g fault)

theorem parse_yields (text : String) :
    Yields (Error.Among (Escapes text)) Tree.KeysPlain (parse text) := by
  unfold parse
  cases composed : compose text.toList with
  | error e =>
    refine .error ?_
    have among := compose_failsOnly text.toList e composed
    cases e with
    | flaw _ _ => trivial
    | fault fault => exact .token among
  | ok found =>
    rw [ok_bind]
    split
    · exact .ok trivial
    · rename_i root g
      have reading : Yields (Error.Among (Unreadable g)) Tree.KeysPlain
          ((Reader.start g).read root >>= fun r => r.run (g.size + 1) >>= fun r =>
            pure (r.treeOf (g.size + 1) [] root)) :=
        (Reader.read_yields (.start g) root).bind fun _ sound =>
          (Reader.run_yields sound _).bind fun _ sound => .ok (Reader.treeOf_keysPlain sound _ _ _)
      refine reading.mono (fun e among => ?_) fun _ => id
      cases e with
      | flaw _ _ => trivial
      | fault fault => exact .node composed among

end SessionPlan.Yaml
