import SessionPlan.Toml.Flaw

/-! The tables of a TOML document while it is read, and the keys that may not be opened again.

A table that has been declared, or that dotted keys have made, is closed to further declarations;
the value of a key is closed with all that it holds. An entry of an array of tables begins afresh,
so what was closed under its key is open again. -/
namespace SessionPlan.Toml

abbrev Table := List (Tree × Tree)

/-- Changes the table at a path, making the tables on the way. Where `intoLists` holds a list
stands for its last table. `none` where something other than a table is in the way. -/
def updateAt (intoLists : Bool) (f : Table → Except Flaw Table) : Key → Table → Except Flaw Table
  | [], t => f t
  | k :: ks, t => do
    match Tree.get? t k with
    | none => return t ++ [(.text k, .mapping (← updateAt intoLists f ks []))]
    | some (.mapping inner) =>
      return Tree.insert (.text k) (.mapping (← updateAt intoLists f ks inner)) t
    | some (.list items) =>
      match intoLists, items.getLast? with
      | true, some (.mapping inner) =>
        let inner ← updateAt intoLists f ks inner
        return Tree.insert (.text k) (.list (items.dropLast ++ [.mapping inner])) t
      | _, _ => throw .overwritten
    | some _ => throw .overwritten

/-- Adds a value under a name that is still free. -/
def addValue (taken : Flaw) (name : String) (value : Tree) (t : Table) : Except Flaw Table :=
  if (Tree.get? t name).isSome then .error taken else .ok (t ++ [(.text name, value)])

/-- Adds an empty table to the array of tables of that name. -/
def addToArray (name : String) (t : Table) : Except Flaw Table :=
  match Tree.get? t name with
  | none => .ok (t ++ [(.text name, .list [.mapping []])])
  | some (.list items) =>
    .ok (Tree.insert (.text name) (.list (items ++ [.mapping []])) t)
  | some _ => .error .overwritten

/-- Keys closed to declarations, keys closed with all below them, and keys that are closed as soon
as the next table begins. -/
structure Closed where
  declared : List Key := []
  frozen : List Key := []
  pending : List Key := []

namespace Closed

def isDeclared (c : Closed) (key : Key) : Bool := c.declared.contains key

def isFrozen (c : Closed) (key : Key) : Bool := c.frozen.any (·.isPrefixOf key)

def declare (c : Closed) (key : Key) : Closed := { c with declared := key :: c.declared }

def freeze (c : Closed) (key : Key) : Closed := { c with frozen := key :: c.frozen }

def settle (c : Closed) : Closed := { c with declared := c.pending ++ c.declared, pending := [] }

def reopen (c : Closed) (key : Key) : Closed :=
  { c with
    declared := c.declared.filter (!key.isPrefixOf ·)
    frozen := c.frozen.filter (!key.isPrefixOf ·) }

end Closed

/-- Whether the value of a key is closed with what it holds. -/
def holdsValues : Tree → Bool
  | .mapping _ | .list _ => true
  | _ => false

/-- The document so far: its tables, what is closed, and the table that is being filled. -/
structure Draft where
  tables : Table := []
  closed : Closed := {}
  header : Key := []

namespace Draft

/-- Begins the table at `key`. -/
def openTable (d : Draft) (key : Key) : Except Flaw Draft := do
  if d.closed.isDeclared key || d.closed.isFrozen key then throw (.declaredTwice key)
  let tables ← updateAt true .ok key d.tables
  return ⟨tables, d.closed.declare key, key⟩

/-- Begins a new table of the array at `key`. -/
def openArrayTable (d : Draft) (key : Key) : Except Flaw Draft := do
  if d.closed.isFrozen key then throw (.immutable key)
  let tables ← updateAt true (addToArray (key.getLast?.getD "")) key.dropLast d.tables
  return ⟨tables, (d.closed.reopen key).declare key, key⟩

/-- The keys of the tables that a dotted key passes through. -/
def passed (header : Key) (key : Key) : List Key :=
  (List.range' 1 (key.length - 1)).map fun n => header ++ key.take n

/-- Gives a value to a key of the current table. -/
def assign (d : Draft) (key : Key) (value : Tree) : Except Flaw Draft := do
  let passed := passed d.header key
  if let some found := passed.find? d.closed.isDeclared then throw (.redefined found)
  let parent := d.header ++ key.dropLast
  if d.closed.isFrozen parent then throw (.immutable parent)
  let tables ←
    updateAt true (addValue .overwritten (key.getLast?.getD "") value) parent d.tables
  let closed := { d.closed with pending := d.closed.pending ++ passed }
  return { d with
    tables
    closed := if holdsValues value then closed.freeze (d.header ++ key) else closed }

end Draft
end SessionPlan.Toml
