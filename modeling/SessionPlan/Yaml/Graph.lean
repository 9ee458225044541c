import SessionPlan.Yaml.PlainTag

/-! Nodes: the contents of a YAML document with a tag on each. Nodes refer to one another by
number. An alias is its anchor's node itself, so a node may be held in several places, and a
collection may hold itself. -/
namespace SessionPlan.Yaml

inductive Content where
  | scalar (text : String)
  | sequence (items : List Nat)
  | mapping (entries : List (Nat × Nat))
  deriving DecidableEq, Repr

def Content.kindName : Content → String
  | .scalar _ => "scalar"
  | .sequence _ => "sequence"
  | .mapping _ => "mapping"

structure Node where
  tag : String
  content : Content
  line : Nat
  deriving DecidableEq, Repr

structure Graph where
  nodes : Array Node := #[]
  deriving DecidableEq, Repr

namespace Graph

def node (g : Graph) (n : Nat) : Node := g.nodes.getD n ⟨standard "null", .scalar "", 0⟩

def content (g : Graph) (n : Nat) : Content := (g.node n).content

def hasTag (g : Graph) (name : String) (n : Nat) : Bool := (g.node n).tag == standard name

def kindName (g : Graph) (n : Nat) : String := (g.content n).kindName

/-- Entries of a mapping; other nodes have none. -/
def entries (g : Graph) (n : Nat) : List (Nat × Nat) :=
  match g.content n with
  | .mapping entries => entries
  | _ => []

/-- Adds a node, whose number is the size so far. -/
def add (g : Graph) (node : Node) : Graph := ⟨g.nodes.push node⟩

def size (g : Graph) : Nat := g.nodes.size

def fill (g : Graph) (n : Nat) (content : Content) : Graph :=
  ⟨g.nodes.modify n fun node => { node with content }⟩

def retag (g : Graph) (n : Nat) (tag : String) : Graph :=
  ⟨g.nodes.modify n fun node => { node with tag }⟩

def fail (g : Graph) (n : Nat) (flaw : Flaw) : Except Error α :=
  .error (.flaw flaw (some (g.node n).line))

@[simp] theorem size_add (g : Graph) (node : Node) : (g.add node).size = g.size + 1 := by
  simp [add, size]

@[simp] theorem size_fill (g : Graph) (n : Nat) (content : Content) :
    (g.fill n content).size = g.size := by
  simp [fill, size]

@[simp] theorem size_retag (g : Graph) (n : Nat) (tag : String) :
    (g.retag n tag).size = g.size := by
  simp [retag, size]

theorem node_add_self (g : Graph) (node : Node) : (g.add node).node g.size = node := by
  simp [add, size, Graph.node]

end Graph
end SessionPlan.Yaml
