import SessionPlan.Proofs.Yaml.Graph
import SessionPlan.Proofs.Yaml.Tokens
import SessionPlan.Yaml.Node

/-! The nodes of a tree that stands in blocks. A collection gets its number before its parts, so that
numbers grow from a node to what it holds, and nothing that comes later changes what is held. -/
namespace SessionPlan.Yaml
open SessionPlan.Tree

namespace Graph
variable {g h k : Graph} {n m start : Nat}

/-- The second graph goes on from the first one, and has its nodes from a number on. -/
structure Grows (g h : Graph) (start : Nat) : Prop where
  size : g.size ≤ h.size
  same : ∀ m, start ≤ m → m < g.size → h.node m = g.node m

theorem Grows.refl (g : Graph) (start : Nat) : Grows g g start := ⟨Nat.le_refl _, fun _ _ _ => rfl⟩

theorem Grows.trans (first : Grows g h start) (second : Grows h k start) : Grows g k start :=
  ⟨Nat.le_trans first.size second.size, fun m inside known =>
    (second.same m inside (Nat.lt_of_lt_of_le known first.size)).trans (first.same m inside known)⟩

theorem Grows.mono (grows : Grows g h start) (le : start ≤ n) : Grows g h n :=
  ⟨grows.size, fun m inside known => grows.same m (Nat.le_trans le inside) known⟩

theorem grows_add (g : Graph) (node : Node) : Grows g (g.add node) 0 := by
  refine ⟨by simp, fun m _ known => ?_⟩
  simp only [add, Graph.node, Array.getD_eq_getD_getElem?]
  rw [Array.getElem?_push_lt known, Array.getElem?_eq_getElem known]

theorem grows_fill (g : Graph) (n : Nat) (content : Content) : Grows g (g.fill n content) (n + 1) :=
  ⟨by simp, fun m inside _ => by rw [node_fill, if_neg (by omega)]⟩

/-- Filling a node that is new. -/
theorem Grows.fill (grows : Grows g h start) (new : g.size ≤ n) (content : Content) :
    Grows g (h.fill n content) start :=
  ⟨by simpa using grows.size, fun m inside known => by
    rw [node_fill, if_neg (by omega)]
    exact grows.same m inside known⟩

/-- A node with its number. -/
def Has (g : Graph) (n : Nat) (node : Node) : Prop := n < g.size ∧ g.node n = node

theorem Has.grows {node : Node} (has : g.Has n node) (grows : Grows g h n) : h.Has n node :=
  ⟨Nat.lt_of_lt_of_le has.1 grows.size, (grows.same n (Nat.le_refl n) has.1).trans has.2⟩

theorem has_add (g : Graph) (node : Node) : (g.add node).Has g.size node :=
  ⟨by simp, node_add_self g node⟩

theorem has_fill {tag : String} {old content : Content} {line : Nat} (has : g.Has n ⟨tag, old, line⟩) :
    (g.fill n content).Has n ⟨tag, content, line⟩ :=
  ⟨by simpa using has.1, by rw [node_fill, if_pos ⟨rfl, has.1⟩, has.2]⟩

end Graph

/-! ### Nodes of trees -/

/-- A key under this number. -/
def HoldsName (g : Graph) (key : Tree) (n : Nat) : Prop :=
  ∃ name line, key = .text name ∧ g.Has n ⟨standard "str", .scalar name, line⟩

/-- A tree without parts under this number. -/
def HoldsLeaf (g : Graph) (t : Tree) (n : Nat) : Prop :=
  ∃ text plain line, leafToken t = .scalar text plain ∧
    g.Has n (Composition.scalarNode none text plain line)

mutual

/-- The tree whose root has this number. What it holds has higher ones. -/
def Holds (g : Graph) : Tree → (n : Nat) → Prop
  | .list items, n => ∃ ns line, g.Has n ⟨standard "seq", .sequence ns, line⟩ ∧ HoldsItems g items n ns
  | .mapping entries, n =>
    ∃ ns line, g.Has n ⟨standard "map", .mapping ns, line⟩ ∧ HoldsEntries g entries n ns
  | .null, n => HoldsLeaf g .null n
  | .flag b, n => HoldsLeaf g (.flag b) n
  | .int i, n => HoldsLeaf g (.int i) n
  | .text t, n => HoldsLeaf g (.text t) n
  | _, _ => False

def HoldsItems (g : Graph) : List Tree → (above : Nat) → List Nat → Prop
  | [], _, ns => ns = []
  | item :: rest, above, ns =>
    ∃ n more, ns = n :: more ∧ above < n ∧ Holds g item n ∧ HoldsItems g rest above more

def HoldsEntries (g : Graph) : List (Tree × Tree) → (above : Nat) → List (Nat × Nat) → Prop
  | [], _, ns => ns = []
  | (key, value) :: rest, above, ns =>
    ∃ k n more, ns = (k, n) :: more ∧ above < k ∧ above < n ∧ HoldsName g key k ∧ Holds g value n ∧
      HoldsEntries g rest above more

end

section Grows
variable {g h : Graph}

theorem HoldsName.grows {key : Tree} {n : Nat} (holds : HoldsName g key n) (grows : g.Grows h n) :
    HoldsName h key n := by
  obtain ⟨name, line, rfl, has⟩ := holds
  exact ⟨name, line, rfl, has.grows grows⟩

theorem HoldsLeaf.grows {t : Tree} {n : Nat} (holds : HoldsLeaf g t n) (grows : g.Grows h n) :
    HoldsLeaf h t n := by
  obtain ⟨text, plain, line, token, has⟩ := holds
  exact ⟨text, plain, line, token, has.grows grows⟩

mutual

/-- What a graph holds stays, whatever becomes of lower numbers. -/
theorem Holds.grows : ∀ {t : Tree} {n : Nat}, Holds g t n → g.Grows h n → Holds h t n
  | .list items, n, holds, grows => by
    obtain ⟨ns, line, has, parts⟩ := holds
    exact ⟨ns, line, has.grows grows, HoldsItems.grows parts (grows.mono (Nat.le_succ n))⟩
  | .mapping entries, n, holds, grows => by
    obtain ⟨ns, line, has, parts⟩ := holds
    exact ⟨ns, line, has.grows grows, HoldsEntries.grows parts (grows.mono (Nat.le_succ n))⟩
  | .null, _, holds, grows => HoldsLeaf.grows holds grows
  | .flag _, _, holds, grows => HoldsLeaf.grows holds grows
  | .int _, _, holds, grows => HoldsLeaf.grows holds grows
  | .text _, _, holds, grows => HoldsLeaf.grows holds grows

theorem HoldsItems.grows : ∀ {items : List Tree} {above : Nat} {ns : List Nat},
    HoldsItems g items above ns → g.Grows h (above + 1) → HoldsItems h items above ns
  | [], _, _, holds, _ => holds
  | item :: rest, above, ns, holds, grows => by
    obtain ⟨n, more, rfl, further, first, later⟩ := holds
    exact ⟨n, more, rfl, further, Holds.grows first (grows.mono further),
      HoldsItems.grows later grows⟩

theorem HoldsEntries.grows : ∀ {entries : List (Tree × Tree)} {above : Nat} {ns : List (Nat × Nat)},
    HoldsEntries g entries above ns → g.Grows h (above + 1) → HoldsEntries h entries above ns
  | [], _, _, holds, _ => holds
  | (key, value) :: rest, above, ns, holds, grows => by
    obtain ⟨k, n, more, rfl, further, further', name, first, later⟩ := holds
    exact ⟨k, n, more, rfl, further, further', name.grows (grows.mono further),
      Holds.grows first (grows.mono further'), HoldsEntries.grows later grows⟩

end
end Grows

/-! ### Single steps -/

namespace Composition
variable {s : Composition} {t : Placed} {rest : List Placed}

theorem peek_cons (tokens : s.tokens = t :: rest) : s.peek = .ok t := by
  rw [peek, tokens]

theorem properties_none (tokens : s.tokens = t :: rest) (anchor : ∀ name, t.token ≠ .anchor name)
    (tag : ∀ handle suffix, t.token ≠ .tag handle suffix) : s.properties = .ok ({}, s) := by
  obtain ⟨token, line⟩ := t
  cases token with
  | anchor name => exact absurd rfl (anchor name)
  | tag handle suffix => exact absurd rfl (tag handle suffix)
  | _ => simp [properties, readAnchor, readTag, peek_cons tokens, pure, Except.pure, bind, Except.bind]

theorem node_scalar {text : String} {plain : Bool} (tokens : s.tokens = t :: rest)
    (token : t.token = .scalar text plain) (place : Place) (fuel : Nat) :
    node place (fuel + 1) s = .ok (s.next.place none (scalarNode none text plain t.line)) := by
  have bare := properties_none tokens (by simp [token]) (by simp [token])
  simp [node, peek_cons tokens, token, bare, ok_bind, fullTag, checkAnchor, pure, Except.pure]

theorem node_sequence (tokens : s.tokens = t :: rest) (token : t.token = .blockSequenceStart)
    {place : Place} (block : place.block = true) (fuel : Nat) :
    node place (fuel + 1) s = (do
      let (number, s) := s.next.place none (openSequence none t.line)
      let (items, s) ← blockItems fuel s
      return (number, s.fill number (.sequence items))) := by
  have bare := properties_none tokens (by simp [token]) (by simp [token])
  simp [node, peek_cons tokens, token, bare, ok_bind, fullTag, checkAnchor, block]

theorem node_mapping (tokens : s.tokens = t :: rest) (token : t.token = .blockMappingStart)
    {place : Place} (block : place.block = true) (fuel : Nat) :
    node place (fuel + 1) s = (do
      let (number, s) := s.next.place none (openMapping none t.line)
      let (entries, s) ← blockEntries fuel s
      return (number, s.fill number (.mapping entries))) := by
  have bare := properties_none tokens (by simp [token]) (by simp [token])
  simp [node, peek_cons tokens, token, bare, ok_bind, fullTag, checkAnchor, block]

theorem node_indentless (tokens : s.tokens = t :: rest) (token : t.token = .blockEntry)
    {place : Place} (indentless : place.indentless = true) (fuel : Nat) :
    node place (fuel + 1) s = (do
      let (number, s) := s.place none (openSequence none t.line)
      let (items, s) ← indentlessItems fuel s
      return (number, s.fill number (.sequence items))) := by
  have bare := properties_none tokens (by simp [token]) (by simp [token])
  simp [node, peek_cons tokens, token, bare, ok_bind, fullTag, checkAnchor, indentless]

theorem nodeUnless_present (tokens : s.tokens = t :: rest) {absent : List Token}
    (present : t.token ∉ absent) (place : Place) (line fuel : Nat) :
    nodeUnless place absent line (fuel + 1) s = node place fuel s := by
  simp [nodeUnless, peek_cons tokens, ok_bind, isOneOf, present]

/-! ### Lists -/

/-- The items of a list, which ends with its block or, in a mapping, with the next key. -/
def composeItems (indentless : Bool) (fuel : Nat) (s : Composition) :
    Except Error (List Nat × Composition) :=
  if indentless then indentlessItems fuel s else blockItems fuel s

/-- What the items of a list end at. -/
def EndsItems (indentless : Bool) (token : Token) : Prop :=
  if indentless then token ≠ .blockEntry else token = .blockEnd

theorem composeItems_entry (indentless : Bool) (tokens : s.tokens = t :: rest)
    (token : t.token = .blockEntry) {next : Placed} {more : List Placed} (follows : rest = next :: more)
    (present : next.token ∉ [Token.blockEntry, .key, .value, .blockEnd]) (fuel : Nat) :
    composeItems indentless (fuel + 2) s = (do
      let (item, s) ← node ⟨true, false⟩ fuel s.next
      let (items, s) ← composeItems indentless (fuel + 1) s
      return (item :: items, s)) := by
  have after : s.next.tokens = next :: more := by rw [Composition.next, tokens, follows]; rfl
  have fewer : next.token ∉ [Token.blockEntry, .blockEnd] := fun member => present (by
    simp only [List.mem_cons, List.not_mem_nil, or_false] at member ⊢
    tauto)
  cases indentless with
  | true =>
    rw [composeItems, if_pos rfl, indentlessItems, peek_cons tokens, ok_bind, token]
    simp only [nodeUnless_present after present]
    rfl
  | false =>
    rw [composeItems, if_neg Bool.false_ne_true, blockItems, peek_cons tokens, ok_bind, token]
    simp only [nodeUnless_present after fewer]
    rfl

theorem composeItems_end {indentless : Bool} (tokens : s.tokens = t :: rest)
    (ends : EndsItems indentless t.token) (fuel : Nat) :
    composeItems indentless (fuel + 1) s =
      .ok ([], if indentless then s else s.next) := by
  cases indentless with
  | true =>
    have ends : t.token ≠ .blockEntry := ends
    rw [composeItems, if_pos rfl, indentlessItems, peek_cons tokens, ok_bind]
    split
    · contradiction
    · rfl
  | false =>
    have ends : t.token = .blockEnd := ends
    rw [composeItems, if_neg Bool.false_ne_true, blockItems, peek_cons tokens, ok_bind, ends]
    rfl

/-! ### Mappings -/

theorem blockEntries_entry {key name colon next : Placed} {more : List Placed} {text : String}
    {plain : Bool} (tokens : s.tokens = key :: name :: colon :: next :: more) (isKey : key.token = .key)
    (scalar : name.token = .scalar text plain) (isColon : colon.token = .value)
    (present : next.token ∉ [Token.key, .value, .blockEnd]) (fuel : Nat) :
    blockEntries (fuel + 3) s = (do
      let (key, s) := s.next.next.place none (scalarNode none text plain name.line)
      let (value, s) ← node ⟨true, true⟩ (fuel + 1) s.next
      let (entries, s) ← blockEntries (fuel + 2) s
      return ((key, value) :: entries, s)) := by
  have first : s.next.tokens = name :: colon :: next :: more := by
    rw [Composition.next, tokens]
    rfl
  have second : (s.next.next.place none (scalarNode none text plain name.line)).2.tokens =
      colon :: next :: more := by
    show s.next.tokens.drop 1 = _
    rw [first]
    rfl
  have third : (s.next.next.place none (scalarNode none text plain name.line)).2.next.tokens =
      next :: more := by
    rw [Composition.next, second]
    rfl
  rw [blockEntries, peek_cons tokens, ok_bind, isKey]
  rw [nodeUnless_present first (by simp [scalar]), node_scalar first scalar, ok_bind]
  dsimp only
  rw [peek_cons second, ok_bind, isColon]
  dsimp only
  rw [nodeUnless_present third present]

theorem blockEntries_end (tokens : s.tokens = t :: rest) (token : t.token = .blockEnd) (fuel : Nat) :
    blockEntries (fuel + 1) s = .ok ([], s.next) := by
  rw [blockEntries, peek_cons tokens, ok_bind, token]
  rfl

/-! ### Trees -/

/-- Further on in the tokens, with more nodes. -/
def after (s : Composition) (tokens : List Placed) (graph : Graph) : Composition :=
  { s with tokens, graph }

theorem after_self {tokens : List Placed} (known : s.tokens = tokens) :
    s.after tokens s.graph = s := by
  subst known
  rfl

theorem valueTokens_head {t : Tree} {room : Nat} (block : t.IsBlock room) (underKey : Bool) :
    ∃ token more, valueTokens t underKey = token :: more ∧
      token ∉ [Token.key, .value, .blockEnd] ∧ (token = .blockEntry → underKey = true) := by
  cases t with
  | null | flag | int | text => exact ⟨_, [], rfl, by simp [leafToken], by simp [leafToken]⟩
  | list items =>
    cases underKey with
    | false => exact ⟨_, _, rfl, by simp, by simp⟩
    | true =>
      obtain ⟨item, rest, rfl⟩ := List.exists_cons_of_ne_nil block.1
      exact ⟨_, _, rfl, by simp, by simp⟩
  | mapping entries => exact ⟨_, _, rfl, by simp, by simp⟩
  | real | nan | tuple | set | bytes | date | moment | clock | cycle => cases block

/-- The tokens of a tree become its nodes. -/
def MakesNode (tree : Tree) (underKey : Bool) : Prop :=
  ∀ (fuel : Nat) {s : Composition} {front rest : List Placed} {next : Placed},
    s.tokens = front ++ next :: rest → front.map (·.token) = valueTokens tree underKey →
      (underKey = true → next.token ≠ .blockEntry) → 3 * front.length + 2 ≤ fuel →
        ∃ n h, node ⟨true, underKey⟩ fuel s = .ok (n, s.after (next :: rest) h) ∧
          s.graph.Grows h 0 ∧ s.graph.size ≤ n ∧ Holds h tree n

/-- The tokens of items become their nodes. -/
def MakesItems (items : List Tree) (indentless : Bool) : Prop :=
  ∀ (fuel : Nat) {s : Composition} {front rest : List Placed} {next : Placed},
    s.tokens = front ++ next :: rest → front.map (·.token) = itemTokens items →
      EndsItems indentless next.token → 3 * front.length + 1 ≤ fuel →
        ∃ ns h, composeItems indentless fuel s =
            .ok (ns, s.after (if indentless then next :: rest else rest) h) ∧
          s.graph.Grows h 0 ∧ ∀ above < s.graph.size, HoldsItems h items above ns

/-- The tokens of entries become their nodes. -/
def MakesEntries (entries : List (Tree × Tree)) : Prop :=
  ∀ (fuel : Nat) {s : Composition} {front rest : List Placed} {next : Placed},
    s.tokens = front ++ next :: rest → front.map (·.token) = entryTokens entries →
      next.token = .blockEnd → 3 * front.length + 1 ≤ fuel →
        ∃ ns h, blockEntries fuel s = .ok (ns, s.after rest h) ∧
          s.graph.Grows h 0 ∧ ∀ above < s.graph.size, HoldsEntries h entries above ns

theorem makesNode_leaf {tree : Tree} {text : String} {plain : Bool}
    (leaf : leafToken tree = .scalar text plain) {underKey : Bool}
    (single : valueTokens tree underKey = [leafToken tree])
    (holds : ∀ h n, HoldsLeaf h tree n → Holds h tree n) : MakesNode tree underKey := by
  intro fuel s front rest next tokens known _ enough
  rw [single] at known
  obtain ⟨p, ended, rfl, token, nothing⟩ := List.map_eq_cons_iff.mp known
  obtain rfl := List.map_eq_nil_iff.mp nothing
  obtain ⟨fuel, rfl⟩ := Nat.exists_eq_add_one_of_ne_zero (n := fuel) (by omega)
  refine ⟨s.graph.size, s.graph.add (scalarNode none text plain p.line), ?_, Graph.grows_add _ _,
    Nat.le_refl _, holds _ _ ⟨text, plain, p.line, leaf, Graph.has_add _ _⟩⟩
  rw [node_scalar tokens (token.trans leaf), Composition.place, Composition.next, tokens]
  rfl

/-- A collection with the tokens of its block around those of its parts. -/
theorem block_tokens {front : List Placed} {a b : Token} {middle : List Token}
    (known : front.map (·.token) = a :: (middle ++ [b])) :
    ∃ first inner last, front = first :: (inner ++ [last]) ∧ first.token = a ∧
      inner.map (·.token) = middle ∧ last.token = b := by
  obtain ⟨first, body, rfl, opening, known⟩ := List.map_eq_cons_iff.mp known
  obtain ⟨inner, ending, rfl, inside, known⟩ := List.map_eq_append_iff.mp known
  obtain ⟨last, nothing, rfl, closing, known⟩ := List.map_eq_cons_iff.mp known
  obtain rfl := List.map_eq_nil_iff.mp known
  exact ⟨first, inner, last, rfl, opening, inside, closing⟩

/-- A list whose items have been made. -/
theorem list_holds {items : List Tree} {ns : List Nat} {g h : Graph} {line : Nat}
    (grows : (g.add (openSequence none line)).Grows h 0) (parts : HoldsItems h items g.size ns) :
    g.Grows (h.fill g.size (.sequence ns)) 0 ∧
      Holds (h.fill g.size (.sequence ns)) (.list items) g.size := by
  have has := (Graph.has_add g (openSequence none line)).grows (grows.mono (Nat.zero_le _))
  exact ⟨((Graph.grows_add g _).trans grows).fill (Nat.le_refl _) _, ns, line, Graph.has_fill has,
    parts.grows (Graph.grows_fill h _ _)⟩

theorem mapping_holds {entries : List (Tree × Tree)} {ns : List (Nat × Nat)} {g h : Graph}
    {line : Nat} (grows : (g.add (openMapping none line)).Grows h 0)
    (parts : HoldsEntries h entries g.size ns) :
    g.Grows (h.fill g.size (.mapping ns)) 0 ∧
      Holds (h.fill g.size (.mapping ns)) (.mapping entries) g.size := by
  have has := (Graph.has_add g (openMapping none line)).grows (grows.mono (Nat.zero_le _))
  exact ⟨((Graph.grows_add g _).trans grows).fill (Nat.le_refl _) _, ns, line, Graph.has_fill has,
    parts.grows (Graph.grows_fill h _ _)⟩

theorem makesNode_list {items : List Tree} (nonempty : items ≠ [])
    (parts : ∀ indentless, MakesItems items indentless) (underKey : Bool) :
    MakesNode (.list items) underKey := by
  intro fuel s front rest next tokens known ends enough
  obtain ⟨fuel, rfl⟩ := Nat.exists_eq_add_one_of_ne_zero (n := fuel) (by omega)
  cases underKey with
  | false =>
    obtain ⟨first, inner, last, rfl, token, known, close⟩ := block_tokens known
    have tokens : s.tokens = first :: (inner ++ last :: (next :: rest)) := by simp [tokens]
    have inside : (s.next.place none (openSequence none first.line)).2.tokens =
        inner ++ last :: (next :: rest) := by
      show s.tokens.drop 1 = _
      rw [tokens]
      rfl
    obtain ⟨ns, h, composed, grows, parts⟩ := parts false fuel inside known close
      (by simp at enough ⊢; omega)
    have holds := list_holds grows (parts s.graph.size (Nat.lt_of_lt_of_eq (Nat.lt_succ_self _)
      (Graph.size_add _ _).symm))
    refine ⟨s.graph.size, h.fill s.graph.size (.sequence ns), ?_, holds.1, Nat.le_refl _, holds.2⟩
    have blocks : blockItems fuel (s.next.place none (openSequence none first.line)).2 = _ := composed
    rw [node_sequence tokens token rfl]
    dsimp only
    rw [blocks]
    rfl
  | true =>
    obtain ⟨item, others, rfl⟩ := List.exists_cons_of_ne_nil nonempty
    obtain ⟨first, inner, rfl, token, -⟩ := List.map_eq_cons_iff.mp known
    obtain ⟨ns, h, composed, grows, parts⟩ := parts true fuel
      (s := (s.place none (openSequence none first.line)).2) tokens known (ends rfl) (by omega)
    have holds := list_holds grows (parts s.graph.size (Nat.lt_of_lt_of_eq (Nat.lt_succ_self _)
      (Graph.size_add _ _).symm))
    have blocks : indentlessItems fuel (s.place none (openSequence none first.line)).2 = _ := composed
    refine ⟨s.graph.size, h.fill s.graph.size (.sequence ns), ?_, holds.1, Nat.le_refl _, holds.2⟩
    rw [node_indentless tokens token rfl]
    dsimp only
    rw [blocks]
    rfl

theorem makesNode_mapping {entries : List (Tree × Tree)} (parts : MakesEntries entries)
    (underKey : Bool) : MakesNode (.mapping entries) underKey := by
  intro fuel s front rest next tokens known ends enough
  obtain ⟨fuel, rfl⟩ := Nat.exists_eq_add_one_of_ne_zero (n := fuel) (by omega)
  obtain ⟨first, inner, last, rfl, token, known, close⟩ := block_tokens known
  have tokens : s.tokens = first :: (inner ++ last :: (next :: rest)) := by simp [tokens]
  have inside : (s.next.place none (openMapping none first.line)).2.tokens =
      inner ++ last :: (next :: rest) := by
    show s.tokens.drop 1 = _
    rw [tokens]
    rfl
  obtain ⟨ns, h, composed, grows, parts⟩ := parts fuel inside known close
    (by simp at enough ⊢; omega)
  have holds := mapping_holds grows (parts s.graph.size (Nat.lt_of_lt_of_eq (Nat.lt_succ_self _)
    (Graph.size_add _ _).symm))
  refine ⟨s.graph.size, h.fill s.graph.size (.mapping ns), ?_, holds.1, Nat.le_refl _, holds.2⟩
  rw [node_mapping tokens token rfl]
  dsimp only
  rw [composed]
  rfl

theorem makesItems_nil (indentless : Bool) : MakesItems [] indentless := by
  intro fuel s front rest next tokens known ends enough
  obtain rfl := List.map_eq_nil_iff.mp known
  obtain ⟨fuel, rfl⟩ := Nat.exists_eq_add_one_of_ne_zero (n := fuel) (by omega)
  refine ⟨[], s.graph, ?_, .refl _ _, fun _ _ => rfl⟩
  rw [composeItems_end tokens ends]
  cases indentless with
  | true =>
    have stays : s.after (next :: rest) s.graph = s := after_self tokens
    rw [if_pos rfl, if_pos rfl, stays]
  | false =>
    rw [Composition.next, tokens]
    rfl

theorem makesItems_cons {item : Tree} {items : List Tree} {room : Nat} (block : item.IsBlock room)
    (first : MakesNode item false) (indentless : Bool) (later : MakesItems items indentless) :
    MakesItems (item :: items) indentless := by
  intro fuel s front rest next tokens known ends enough
  obtain ⟨dash, body, rfl, token, known⟩ := List.map_eq_cons_iff.mp known
  obtain ⟨a, b, rfl, own, others⟩ := List.map_eq_append_iff.mp known
  obtain ⟨head, more, heads, present, keyed⟩ := valueTokens_head block false
  obtain ⟨p, a', rfl, begins, -⟩ := List.map_eq_cons_iff.mp (own.trans heads)
  obtain ⟨next', rest', follows⟩ := List.exists_cons_of_ne_nil
    (List.append_ne_nil_of_right_ne_nil b (List.cons_ne_nil next rest))
  obtain ⟨fuel, rfl⟩ := Nat.exists_eq_add_of_le' (m := 2) (n := fuel) (by simp at enough; omega)
  have tokens : s.tokens = dash :: (p :: a' ++ next' :: rest') := by simp [tokens, ← follows]
  have inside : s.next.tokens = p :: a' ++ next' :: rest' := by
    rw [Composition.next, tokens]
    rfl
  obtain ⟨n, g, made, grows, new, holds⟩ := first fuel inside own (by simp)
    (by simp at enough ⊢; omega)
  obtain ⟨ns, h, composed, grows', parts⟩ := later (fuel + 1)
    (s := s.next.after (next' :: rest') g) follows.symm others ends (by simp at enough ⊢; omega)
  refine ⟨n :: ns, h, ?_, grows.trans grows', fun above new' => ?_⟩
  · rw [composeItems_entry indentless tokens token rfl, made, ok_bind]
    · dsimp only
      rw [composed]
      rfl
    · rw [begins]
      have apart : head ≠ .blockEntry := fun same => Bool.false_ne_true (keyed same)
      simpa [apart] using present
  · have further := Nat.lt_of_lt_of_le new' new
    exact ⟨n, ns, rfl, further, holds.grows (grows'.mono (Nat.zero_le _)),
      parts above (Nat.lt_of_lt_of_le new' grows.size)⟩

theorem makesEntries_nil : MakesEntries [] := by
  intro fuel s front rest next tokens known ends enough
  obtain rfl := List.map_eq_nil_iff.mp known
  obtain ⟨fuel, rfl⟩ := Nat.exists_eq_add_one_of_ne_zero (n := fuel) (by omega)
  refine ⟨[], s.graph, ?_, .refl _ _, fun _ _ => rfl⟩
  rw [blockEntries_end tokens ends, Composition.next, tokens]
  rfl

theorem makesEntries_cons {name : String} (short : IsName name) {value : Tree}
    {entries : List (Tree × Tree)} {room : Nat} (block : value.IsBlock room)
    (first : MakesNode value true) (later : MakesEntries entries) :
    MakesEntries ((.text name, value) :: entries) := by
  intro fuel s front rest next tokens known ends enough
  obtain ⟨key, body, rfl, isKey, known⟩ := List.map_eq_cons_iff.mp known
  obtain ⟨scalar, body, rfl, (isScalar : _ = Token.scalar name true), known⟩ :=
    List.map_eq_cons_iff.mp known
  obtain ⟨colon, body, rfl, isColon, known⟩ := List.map_eq_cons_iff.mp known
  obtain ⟨a, b, rfl, own, others⟩ := List.map_eq_append_iff.mp known
  obtain ⟨head, more, heads, present, -⟩ := valueTokens_head block true
  obtain ⟨p, a', rfl, begins, -⟩ := List.map_eq_cons_iff.mp (own.trans heads)
  obtain ⟨next', rest', follows⟩ := List.exists_cons_of_ne_nil
    (List.append_ne_nil_of_right_ne_nil b (List.cons_ne_nil next rest))
  obtain ⟨fuel, rfl⟩ := Nat.exists_eq_add_of_le' (m := 3) (n := fuel) (by simp at enough; omega)
  have tokens : s.tokens = key :: scalar :: colon :: (p :: a' ++ next' :: rest') := by
    simp [tokens, ← follows]
  have other : next'.token ≠ .blockEntry := by
    have ended : next'.token = ((b ++ next :: rest).map (·.token)).headD .streamEnd := by
      rw [follows]
      rfl
    rw [ended, List.map_append, others]
    cases entries with
    | nil => simp [entryTokens, ends]
    | cons entry entries => simp [entryTokens]
  have inside : (s.next.next.place none (scalarNode none name true scalar.line)).2.next.tokens =
      p :: a' ++ next' :: rest' := by
    show ((s.tokens.drop 1).drop 1).drop 1 = _
    rw [tokens]
    rfl
  obtain ⟨n, g, made, grows, new, holds⟩ := first (fuel + 1) inside own (fun _ => other)
    (by simp at enough ⊢; omega)
  obtain ⟨ns, h, composed, grows', parts⟩ := later (fuel + 2)
    (s := (s.next.next.place none (scalarNode none name true scalar.line)).2.next.after
      (next' :: rest') g) follows.symm others ends (by simp at enough ⊢; omega)
  have one := Graph.grows_add s.graph (scalarNode none name true scalar.line)
  have all : (s.graph.add (scalarNode none name true scalar.line)).Grows h 0 := grows.trans grows'
  refine ⟨(s.graph.size, n) :: ns, h, ?_, one.trans all, fun above new' => ?_⟩
  · rw [blockEntries_entry tokens isKey isScalar isColon (begins ▸ present)]
    dsimp only
    rw [made, ok_bind]
    dsimp only
    rw [composed]
    rfl
  · have named : scalarNode none name true scalar.line = ⟨standard "str", .scalar name, scalar.line⟩ := by
      rw [← (styleOf_plain short.plain).1]
      rfl
    have has := Graph.has_add s.graph (scalarNode none name true scalar.line)
    have keyed : Graph.Has _ _ ⟨standard "str", .scalar name, scalar.line⟩ :=
      ⟨has.1, has.2.trans named⟩
    have wider := Nat.lt_of_lt_of_le new' one.size
    exact ⟨_, n, ns, rfl, new', Nat.lt_of_lt_of_le wider new, ⟨name, scalar.line, rfl,
      keyed.grows (all.mono (Nat.zero_le _))⟩, holds.grows (grows'.mono (Nat.zero_le _)),
      parts above (Nat.lt_of_lt_of_le wider grows.size)⟩

mutual

theorem makesNode : ∀ {tree : Tree} {room : Nat}, tree.IsBlock room →
    ∀ underKey, MakesNode tree underKey
  | .null, _, _, _ => makesNode_leaf rfl rfl fun _ _ => id
  | .flag _, _, _, _ => makesNode_leaf rfl rfl fun _ _ => id
  | .int _, _, _, _ => makesNode_leaf rfl rfl fun _ _ => id
  | .text _, _, _, _ => makesNode_leaf rfl rfl fun _ _ => id
  | .list _, _, block, underKey =>
    makesNode_list block.1 (fun indentless => makesItems block.2.2 indentless) underKey
  | .mapping _, _, block, underKey => makesNode_mapping (makesEntries block.2.2.1) underKey

theorem makesItems : ∀ {items : List Tree} {room : Nat}, AreBlocks items room →
    ∀ indentless, MakesItems items indentless
  | [], _, _, indentless => makesItems_nil indentless
  | _ :: _, _, block, indentless =>
    makesItems_cons block.1 (makesNode block.1 false) indentless (makesItems block.2 indentless)

theorem makesEntries : ∀ {entries : List (Tree × Tree)} {room : Nat}, HaveBlocks entries room →
    MakesEntries entries
  | [], _, _ => makesEntries_nil
  | (_, _) :: _, _, ⟨⟨_, rfl, short⟩, block, later⟩ =>
    makesEntries_cons short block (makesNode block true) (makesEntries later)

end

/-- A document of one block that ends with the text. -/
theorem document?_mapping {entries : List (Tree × Tree)} {room : Nat} (block : HaveBlocks entries room)
    {placed : List Placed} (known : placed.map (·.token) =
      .blockMappingStart :: (entryTokens entries ++ [.blockEnd, .streamEnd])) :
    ∃ n g, document? ⟨placed, none, [], [], {}⟩ = .ok (some (n, g)) ∧ Holds g (.mapping entries) n := by
  have split : placed.map (·.token) = valueTokens (.mapping entries) false ++ [.streamEnd] := by
    rw [known, valueTokens]
    simp
  obtain ⟨front, ending, rfl, own, known⟩ := List.map_eq_append_iff.mp split
  obtain ⟨last, nothing, rfl, ended, known⟩ := List.map_eq_cons_iff.mp known
  obtain rfl := List.map_eq_nil_iff.mp known
  obtain ⟨first, inner, rfl, begins, -⟩ := List.map_eq_cons_iff.mp own
  let s : Composition := ⟨first :: inner ++ [last], none, defaultHandles, [], {}⟩
  obtain ⟨n, h, made, -, -, holds⟩ := makesNode_mapping (makesEntries block) false
    (3 * s.tokens.length + 3) (s := s) rfl own (by simp) (by simp [s]; omega)
  refine ⟨n, h, ?_, holds⟩
  have whole : documentNode false s = .ok (n, s.after [last] h) := by
    rw [documentNode, peek_cons (s := s) (t := first) rfl, ok_bind, begins]
    exact made
  have stays : (s.after [last] h).skipDocumentEnds = s.after [last] h := by
    simp [skipDocumentEnds, after, ended]
  have ends : (s.after [last] h).documentEnd = .ok (s.after [last] h) := by
    rw [documentEnd, peek_cons (s := s.after [last] h) rfl, ok_bind, ended]
    rfl
  have nothing : (s.after [last] h).documentStart? = .ok none := by
    rw [documentStart?, stays, peek_cons (s := s.after [last] h) rfl, ok_bind, ended]
    rfl
  rw [document?, peek_cons (t := first) rfl, ok_bind, begins]
  dsimp only
  rw [pure_bind]
  dsimp only
  rw [show documentNode false ⟨first :: inner ++ [last], none, defaultHandles, [], {}⟩ = _ from whole,
    ok_bind]
  dsimp only
  rw [ends, ok_bind, nothing]
  rfl

end Composition

theorem firstUnaccepted?_none {s : List Char} (accepted : AreAccepted s) (position : Nat) :
    firstUnaccepted? position s = none := by
  induction s generalizing position with
  | nil => rfl
  | cons c s ih =>
    obtain ⟨first, others⟩ := List.forall_mem_cons.mp accepted
    rw [firstUnaccepted?, if_pos first, ih others]

/-- The nodes of a document that is a mapping. -/
theorem compose_document {entries : List (Tree × Tree)} (nonempty : entries ≠ []) {room : Nat}
    (block : HaveBlocks entries room) {s : List Char}
    (spells : SpellsEntries entries 0 (newLine 0 ++ s)) :
    ∃ n g, compose (s ++ newLine 0) = .ok (some (n, g)) ∧ Holds g (.mapping entries) n := by
  obtain ⟨placed, cut, known⟩ := tokens_document nonempty block spells
  obtain ⟨n, g, composed, holds⟩ := Composition.document?_mapping block known
  have accepted : AreAccepted (s ++ newLine 0) :=
    areAccepted_append.mpr ⟨(areAccepted_append.mp (spells.accepted block)).2, areAccepted_newLine 0⟩
  refine ⟨n, g, ?_, holds⟩
  rw [compose, firstUnaccepted?_none accepted, cut]
  exact composed

end SessionPlan.Yaml
