import SessionPlan.Proofs.Json.Tree
import SessionPlan.Proofs.Yaml.Nodes
import SessionPlan.Proofs.Yaml.Read

/-! What the nodes of a tree are read as: a scalar at once as a value, and a collection as its parts,
which are such nodes again. -/
namespace SessionPlan.Yaml
open SessionPlan.Tree

mutual

/-- A tree with its texts as they are read back. Keys are names, which stay as they are. -/
def rereadTree : Tree → Tree
  | .text t => .text (reread t)
  | .list items => .list (rereadItems items)
  | .mapping entries => .mapping (rereadEntries entries)
  | t => t

def rereadItems : List Tree → List Tree
  | [] => []
  | item :: rest => rereadTree item :: rereadItems rest

def rereadEntries : List (Tree × Tree) → List (Tree × Tree)
  | [] => []
  | (key, value) :: rest => (key, rereadTree value) :: rereadEntries rest

end

/-! ### Leaves -/

section Leaves
variable {g : Graph} {n line : Nat} {text : String}

theorem leafTree_eq {name : String} (node : g.node n = ⟨standard name, .scalar text, line⟩) :
    scalarTypes.find? (g.hasTag · n) = scalarTypes.find? (standard name == standard ·) ∧
      scalarText g (g.size + 1) n = .ok text := by
  have content : g.content n = .scalar text := by rw [Graph.content, node]
  constructor
  · congr 1
    funext other
    rw [Graph.hasTag, node]
  · rw [scalarText, content]

theorem leafTree_null (node : g.node n = ⟨standard "null", .scalar text, line⟩) :
    leafTree g n = .ok .null := by
  obtain ⟨type, scalar⟩ := leafTree_eq node
  rw [leafTree, type, show scalarTypes.find? (standard "null" == standard ·) = some "null" by decide]
  dsimp only
  rw [scalar]
  rfl

theorem leafTree_bool (node : g.node n = ⟨standard "bool", .scalar text, line⟩) {b : Bool}
    (reads : boolValue text = .ok b) : leafTree g n = .ok (.flag b) := by
  obtain ⟨type, scalar⟩ := leafTree_eq node
  rw [leafTree, type, show scalarTypes.find? (standard "bool" == standard ·) = some "bool" by decide]
  dsimp only
  rw [scalar, ok_bind, reads]
  rfl

theorem leafTree_int (node : g.node n = ⟨standard "int", .scalar text, line⟩) {i : Int}
    (reads : integerValue text = .ok i) : leafTree g n = .ok (.int i) := by
  obtain ⟨type, scalar⟩ := leafTree_eq node
  rw [leafTree, type, show scalarTypes.find? (standard "int" == standard ·) = some "int" by decide]
  dsimp only
  rw [scalar, ok_bind, reads]
  rfl

theorem leafTree_str (node : g.node n = ⟨standard "str", .scalar text, line⟩) :
    leafTree g n = .ok (.text text) := by
  obtain ⟨type, scalar⟩ := leafTree_eq node
  rw [leafTree, type, show scalarTypes.find? (standard "str" == standard ·) = some "str" by decide]
  dsimp only
  rw [scalar]
  rfl

/-- A node that is read at once, as this value. -/
structure ReadsAs (g : Graph) (n : Nat) (value : Tree) : Prop where
  inside : n < g.size
  scalar : ∃ text, g.content n = .scalar text
  single : collections.lookup (g.node n).tag = none
  reads : leafTree g n = .ok value

theorem readsAs_of_tag {name : String} {value : Tree} (has : g.Has n ⟨standard name, .scalar text, line⟩)
    (single : collections.lookup (standard name) = none)
    (reads : leafTree g n = .ok value) : ReadsAs g n value :=
  ⟨has.1, ⟨text, by rw [Graph.content, has.2]⟩, by rw [has.2]; exact single, reads⟩

theorem HoldsName.readsAs {key : Tree} (holds : HoldsName g key n) : ReadsAs g n key := by
  obtain ⟨name, line, rfl, has⟩ := holds
  exact readsAs_of_tag has (by decide) (leafTree_str has.2)

theorem HoldsLeaf.readsAs_null (holds : HoldsLeaf g .null n) : ReadsAs g n .null := by
  obtain ⟨text, plain, line, leaf, has⟩ := holds
  cases leaf
  exact readsAs_of_tag has (by decide) (leafTree_null has.2)

theorem HoldsLeaf.readsAs_flag {b : Bool} (holds : HoldsLeaf g (.flag b) n) :
    ReadsAs g n (.flag b) := by
  obtain ⟨text, plain, line, leaf, has⟩ := holds
  cases leaf
  have tag : Composition.scalarNode none (if b then "true" else "false") true line =
      ⟨standard "bool", .scalar (if b then "true" else "false"), line⟩ := by
    have type : plainTag (if b then "true" else "false") = standard "bool" := by cases b <;> decide
    rw [← type]
    rfl
  rw [tag] at has
  exact readsAs_of_tag has (by decide) (leafTree_bool has.2 (by cases b <;> rfl))

theorem HoldsLeaf.readsAs_int {i : Int} (holds : HoldsLeaf g (.int i) n)
    (writable : Text.isWritable i = true) : ReadsAs g n (.int i) := by
  obtain ⟨text, plain, line, leaf, has⟩ := holds
  cases leaf
  have tag : Composition.scalarNode none (Text.ofInt i) true line =
      ⟨standard "int", .scalar (Text.ofInt i), line⟩ := by
    rw [← plainTag_ofInt i]
    rfl
  rw [tag] at has
  exact readsAs_of_tag has (by decide) (leafTree_int has.2 (integerValue_ofInt writable))

/-- A text is tagged as one, since in plain style it looks like nothing else. -/
theorem HoldsLeaf.readsAs_text {t : String} (holds : HoldsLeaf g (.text t) n) :
    ReadsAs g n (.text (reread t)) := by
  obtain ⟨text, plain, line, leaf, has⟩ := holds
  cases leaf
  have tag : Composition.scalarNode none (reread t) (styleOf t false == .plain) line =
      ⟨standard "str", .scalar (reread t), line⟩ := by
    cases style : styleOf t false with
    | plain =>
      have same : reread t = t := by rw [reread, style, reading, String.ofList_toList]
      rw [same, ← (styleOf_plain style).1]
      rfl
    | single => rfl
    | double => rfl
  rw [tag] at has
  exact readsAs_of_tag has (by decide) (leafTree_str has.2)

end Leaves
/-- The text of a node that is a key. -/
def Graph.keyOf (g : Graph) (n : Nat) : Tree :=
  match g.content n with
  | .scalar name => .text name
  | _ => .null

theorem HoldsName.keyOf {g : Graph} {key : Tree} {n : Nat} (holds : HoldsName g key n) :
    g.keyOf n = key := by
  obtain ⟨name, line, rfl, has⟩ := holds
  rw [Graph.keyOf, Graph.content, has.2]

/-- What a graph holds under this number: a tree in blocks that can be written, or one of its
keys. -/
def Graph.Known (g : Graph) (n : Nat) : Prop :=
  (∃ key, HoldsName g key n) ∨
    ∃ t room, t.IsBlock room ∧ (∀ i ∈ t.integers, Text.isWritable i = true) ∧ Holds g t n

/-- What a node in a graph is, so far as reading goes. -/
inductive Graph.Kind (g : Graph) (n : Nat) : Prop
  | leaf (value : Tree) (reads : ReadsAs g n value)
  | list (items : List Nat) (inside : n < g.size) (tag : (g.node n).tag = standard "seq")
    (content : g.content n = .sequence items) (parts : ∀ m ∈ items, g.Known m)
  | mapping (entries : List (Nat × Nat)) (inside : n < g.size)
    (tag : (g.node n).tag = standard "map") (content : g.content n = .mapping entries)
    (keys : ∀ e ∈ entries, HoldsName g (g.keyOf e.1) e.1)
    (apart : entries.Pairwise fun a b => same (g.keyOf a.1) (g.keyOf b.1) = false)
    (values : ∀ e ∈ entries, g.Known e.2)

theorem HoldsItems.known {g : Graph} : ∀ {items : List Tree} {room above : Nat} {ns : List Nat},
    AreBlocks items room → (∀ i ∈ itemIntegers items, Text.isWritable i = true) →
      HoldsItems g items above ns → ∀ m ∈ ns, g.Known m
  | [], _, _, _, _, _, holds, m, member => by
    rw [holds] at member
    cases member
  | item :: rest, room, above, ns, block, writable, holds, m, member => by
    obtain ⟨n, more, rfl, -, first, later⟩ := holds
    rw [itemIntegers, List.forall_mem_append] at writable
    rcases List.mem_cons.mp member with rfl | member
    · exact .inr ⟨item, room, block.1, writable.1, first⟩
    · exact HoldsItems.known block.2 writable.2 later m member

theorem HoldsEntries.known {g : Graph} : ∀ {entries : List (Tree × Tree)} {room above : Nat}
    {ns : List (Nat × Nat)}, HaveBlocks entries room →
      (∀ i ∈ entryIntegers entries, Text.isWritable i = true) → HoldsEntries g entries above ns →
      ns.map (fun e => g.keyOf e.1) = entries.map Prod.fst ∧
        ∀ e ∈ ns, HoldsName g (g.keyOf e.1) e.1 ∧ g.Known e.2
  | [], _, _, _, _, _, holds => by
    rw [holds]
    simp
  | (key, value) :: rest, room, above, ns, block, writable, holds => by
    obtain ⟨k, n, more, rfl, -, -, name, first, later⟩ := holds
    obtain ⟨-, block, others⟩ := block
    rw [entryIntegers, List.forall_mem_append, List.forall_mem_append] at writable
    obtain ⟨keys, parts⟩ := HoldsEntries.known others writable.2 later
    refine ⟨by rw [List.map_cons, List.map_cons, keys, name.keyOf], fun e member => ?_⟩
    rcases List.mem_cons.mp member with rfl | member
    · exact ⟨by rw [name.keyOf]; exact name, .inr ⟨value, room, block, writable.1.2, first⟩⟩
    · exact parts e member

theorem Graph.Known.kind {g : Graph} {n : Nat} (known : g.Known n) : g.Kind n := by
  obtain ⟨key, name⟩ | ⟨t, room, block, writable, holds⟩ := known
  · exact .leaf key name.readsAs
  · cases t with
    | null => exact .leaf _ (HoldsLeaf.readsAs_null holds)
    | flag b => exact .leaf _ (HoldsLeaf.readsAs_flag holds)
    | int i => exact .leaf _ (HoldsLeaf.readsAs_int holds (writable i (List.mem_singleton_self i)))
    | text t => exact .leaf _ (HoldsLeaf.readsAs_text holds)
    | list items =>
      obtain ⟨ns, line, has, parts⟩ := holds
      exact .list ns has.1 (by rw [has.2]) (by rw [Graph.content, has.2]) (parts.known block.2.2 writable)
    | mapping entries =>
      obtain ⟨ns, line, has, parts⟩ := holds
      obtain ⟨-, -, block, apart⟩ := block
      obtain ⟨keys, known⟩ := parts.known block writable
      refine .mapping ns has.1 (by rw [has.2]) (by rw [Graph.content, has.2])
        (fun e member => (known e member).1) ?_ fun e member => (known e member).2
      rw [← List.pairwise_map (f := Prod.fst) (R := fun a b => same a b = false), ← keys,
        List.pairwise_map] at apart
      exact apart
    | real | nan | tuple | set | bytes | date | moment | clock | cycle => cases block

end SessionPlan.Yaml
