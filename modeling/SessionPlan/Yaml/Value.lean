import SessionPlan.Yaml.Binary
import SessionPlan.Yaml.Merge
import SessionPlan.Yaml.Node
import SessionPlan.Yaml.ScalarValue

/-! Trees out of YAML nodes. The tag of a node decides what it is read as.

Scalars are read where they are met first, while a collection is filled only after everything that
was met before it: of two flaws the one nearer to the root is reported, and on one level the
first. Every node is read once, however many places hold it. -/
namespace SessionPlan.Yaml
open SessionPlan.Text

/-- What has been read of a node. The items and values of a collection are nodes again. -/
inductive Reading where
  | leaf (value : Tree)
  | list (items : List Nat)
  | mapping (entries : List (Tree × Nat))
  | set (items : List Tree)
  | pairs (items : List (Nat × Nat))

/-- The nodes, what has been read of each, and the collections to be filled, in their order. -/
structure Reader where
  graph : Graph
  readings : Array (Option Reading)
  waiting : List Nat

/-! ### Scalars -/

/-- The text of a scalar. A mapping with a `=` key stands for the scalar under it. -/
def scalarText (g : Graph) : (fuel : Nat) → Nat → Except Error String
  | 0, _ => fault .endless
  | fuel + 1, n =>
    match g.content n with
    | .scalar text => .ok text
    | .mapping entries =>
      match entries.find? fun entry => g.hasTag "value" entry.1 with
      | some (_, value) => scalarText g fuel value
      | none => g.fail n (.kindExpected "scalar" (g.kindName n))
    | .sequence _ => g.fail n (.kindExpected "scalar" (g.kindName n))

/-- A time is read off the node itself, which must be a scalar. -/
def timestampTree (g : Graph) (n : Nat) : Except Error Tree :=
  match g.content n with
  | .scalar text => timestampValue text
  | _ => fault .kindMismatch

def binaryTree (g : Graph) (n : Nat) (text : String) : Except Error Tree :=
  match decodeBase64 text with
  | .ok bytes => .ok (.bytes bytes)
  | .error flaw => g.fail n flaw

/-- Types of scalars. -/
def scalarTypes : List String := ["null", "bool", "int", "float", "binary", "timestamp", "str"]

/-- The value of a node that is no collection. Its number is the source of a NaN. -/
def leafTree (g : Graph) (n : Nat) : Except Error Tree :=
  match scalarTypes.find? fun name => g.hasTag name n with
  | none => g.fail n (.tagUnknown (g.node n).tag)
  | some name => do
    let text ← scalarText g (g.size + 1) n
    match name with
    | "null" => return .null
    | "bool" => return .flag (← boolValue text)
    | "int" => return .int (← integerValue text)
    | "float" => floatValue (n + 1) text
    | "binary" => binaryTree g n text
    | "timestamp" => timestampTree g n
    | _ => return .text text

/-! ### Collections -/

/-- Collections by their tag, before they are filled. -/
def collections : List (String × Reading) :=
  [(standard "seq", .list []), (standard "map", .mapping []), (standard "set", .set []),
   (standard "omap", .pairs []), (standard "pairs", .pairs [])]

namespace Reader

def start (g : Graph) : Reader := ⟨g, Array.replicate g.size none, []⟩

def reading? (r : Reader) (n : Nat) : Option Reading := r.readings.getD n none

def record (r : Reader) (n : Nat) (reading : Reading) : Reader :=
  { r with readings := r.readings.setIfInBounds n (some reading) }

/-- Reads a node, unless that has been done. A collection is left to be filled. -/
def read (r : Reader) (n : Nat) : Except Error Reader :=
  match r.reading? n, collections.lookup (r.graph.node n).tag with
  | some _, _ => .ok r
  | none, some empty => .ok { r.record n empty with waiting := r.waiting ++ [n] }
  | none, none => do return r.record n (.leaf (← leafTree r.graph n))

def readAll (r : Reader) (ns : List Nat) : Except Error Reader := ns.foldlM read r

/-- Reads a key, which must be a value that does not change. -/
def readKey (r : Reader) (n : Nat) : Except Error (Tree × Reader) := do
  let r ← r.read n
  match r.reading? n with
  | some (.leaf key) => return (key, r)
  | _ => r.graph.fail n .keyChanges

/-- Reads the entries of a mapping in which everything is merged. -/
def readEntries (r : Reader) (found : List (Tree × Nat)) :
    List (Nat × Nat) → Except Error (List (Tree × Nat) × Reader)
  | [] => .ok (found, r)
  | (key, value) :: rest => do
    let (k, r) ← r.readKey key
    let r ← r.read value
    readEntries r (Tree.insert k value found) rest

def readMapping (r : Reader) (n : Nat) : Except Error (List (Tree × Nat) × Reader) :=
  match r.graph.content n with
  | .mapping _ => do
    let g ← r.graph.merged n
    readEntries { r with graph := g } [] (g.entries n)
  | _ => r.graph.fail n (.kindExpected "mapping" (r.graph.kindName n))

/-- Reads the single entries that are the items of an ordered map or of pairs. -/
def readSingles (r : Reader) : List Nat → Except Error (List (Nat × Nat) × Reader)
  | [] => .ok ([], r)
  | item :: rest =>
    match r.graph.content item with
    | .mapping [(key, value)] => do
      let (pairs, r) ← readSingles (← r.readAll [key, value]) rest
      return ((key, value) :: pairs, r)
    | .mapping entries => r.graph.fail item (.orderedItemCount entries.length)
    | _ => r.graph.fail item (.orderedItemExpected (r.graph.kindName item))

/-- Fills a collection. -/
def fill (r : Reader) (n : Nat) : Except Error Reader :=
  match r.reading? n, r.graph.content n with
  | some (.list _), .sequence items => do return (← r.readAll items).record n (.list items)
  | some (.list _), _ => r.graph.fail n (.kindExpected "sequence" (r.graph.kindName n))
  | some (.mapping _), _ => do
    let (entries, r) ← r.readMapping n
    return r.record n (.mapping entries)
  | some (.set _), _ => do
    let (entries, r) ← r.readMapping n
    return r.record n (.set (Tree.members (entries.map Prod.fst)))
  | some (.pairs _), .sequence items => do
    let (pairs, r) ← r.readSingles items
    return r.record n (.pairs pairs)
  | some (.pairs _), _ => r.graph.fail n (.orderedSequenceExpected (r.graph.kindName n))
  | _, _ => .ok r

/-- Fills what is waiting. A node waits once at most, so fuel for all of them is enough. -/
def run : (fuel : Nat) → Reader → Except Error Reader
  | 0, r => .ok r
  | fuel + 1, r =>
    match r.waiting with
    | [] => .ok r
    | n :: rest => do run fuel (← fill { r with waiting := rest } n)

/-- The tree of a node below the nodes of `path`. A path cannot be longer than there are nodes
without coming back to one of its own. -/
def treeOf (r : Reader) : (fuel : Nat) → (path : List Nat) → Nat → Tree
  | 0, _, _ => .cycle
  | fuel + 1, path, n =>
    if path.contains n then .cycle
    else
      let part := treeOf r fuel (n :: path)
      match r.reading? n with
      | none => .null
      | some (.leaf value) => value
      | some (.list items) => .list (items.map part)
      | some (.mapping entries) => .mapping (entries.map fun (key, value) => (key, part value))
      | some (.set items) => .set items
      | some (.pairs items) => .list (items.map fun (key, value) => .tuple [part key, part value])

end Reader

/-- Reads a YAML text. A text without a document is null. -/
def parse (text : String) : Except Error Tree := do
  match ← compose text.toList with
  | none => return .null
  | some (root, g) =>
    let r ← ((← (Reader.start g).read root).run (g.size + 1))
    return r.treeOf (g.size + 1) [] root

end SessionPlan.Yaml
