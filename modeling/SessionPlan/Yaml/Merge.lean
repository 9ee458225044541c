import SessionPlan.Yaml.Graph

/-! Merge keys. The entries of the mappings that a merge key refers to come before the entries of
its own mapping, and of several mappings merged at once the last one's come first: an entry that
comes later wins. A mapping may be merged into itself, since by then its merge key is gone. -/
namespace SessionPlan.Yaml

namespace Graph

/-- The first merge key of a mapping: its place among the entries, and what it refers to. -/
def firstMerge? (g : Graph) (n : Nat) : Option (Nat × Nat) :=
  let entries := g.entries n
  (entries.findIdx? fun entry => g.hasTag "merge" entry.1).bind fun position =>
    (entries[position]?).map fun entry => (position, entry.2)

def withoutEntry (g : Graph) (n position : Nat) : Graph :=
  g.fill n (.mapping ((g.entries n).eraseIdx position))

def putFirst (g : Graph) (n : Nat) (entries : List (Nat × Nat)) : Graph :=
  g.fill n (.mapping (entries ++ g.entries n))

/-- A `=` key is plain text where it is a key. -/
def settleKeys (g : Graph) (n : Nat) : Graph :=
  (g.entries n).foldl (fun g entry =>
    if g.hasTag "value" entry.1 then g.retag entry.1 (standard "str") else g) g

/-- Puts what merge keys refer to into a mapping. Each step takes a merge key out of some mapping
or works on one without any, so fuel for twice the entries of all mappings is enough. -/
def merge : (fuel : Nat) → Graph → Nat → Except Error Graph
  | 0, g, _ => .ok g
  | fuel + 1, g, n =>
    match g.firstMerge? n with
    | none => .ok (g.settleKeys n)
    | some (position, source) => do
      let g := g.withoutEntry n position
      let (g, merged) ← match g.content source with
        | .mapping _ => do
          let g ← merge fuel g source
          pure (g, g.entries source)
        | .sequence items => do
          let collect (found : Graph × List (Nat × Nat)) (item : Nat) := do
            let g := found.1
            let .mapping _ := g.content item | g.fail item (.mergeItemExpected (g.kindName item))
            let g ← merge fuel g item
            return (g, g.entries item ++ found.2)
          items.foldlM collect (g, [])
        | .scalar _ => g.fail source (.mergeExpected (g.kindName source))
      return (← merge fuel g n).putFirst n merged

def entryCount (g : Graph) : Nat :=
  (g.nodes.toList.flatMap fun node =>
    match node.content with
    | .mapping entries => entries
    | _ => []).length

/-- A mapping with all that is merged into it. -/
def merged (g : Graph) (n : Nat) : Except Error Graph := merge (2 * g.entryCount + 2) g n

end Graph
end SessionPlan.Yaml
