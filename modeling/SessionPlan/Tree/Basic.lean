import SessionPlan.Calendar
import SessionPlan.Decimal.Binary

/-! Document trees: the loosely typed values that documents and settings are read into. Mappings
keep the order in which their keys came.

A NaN is equal to nothing, not even to itself, but a collection finds the very NaN that it holds.
So every NaN bears the number of its source, and two are told apart by it. -/
namespace SessionPlan
open SessionPlan.Calendar

inductive Tree where
  | null
  | flag (value : Bool)
  | int (value : Int)
  /-- A number that is not a NaN. -/
  | real (value : Float)
  | nan (source : Nat)
  | text (value : String)
  | list (items : List Tree)
  | tuple (items : List Tree)
  | mapping (entries : List (Tree × Tree))
  | set (items : List Tree)
  | bytes (value : List UInt8)
  | date (value : Date)
  | moment (value : Moment)
  | clock (value : Clock)
  /-- The place in a collection where it holds itself. -/
  | cycle

namespace Tree

instance : Inhabited Tree := ⟨.null⟩

/-- A number as a tree; `source` is where it comes from. -/
def ofFloat (source : Nat) (x : Float) : Tree :=
  match Decimal.kind x with
  | .notANumber => .nan source
  | _ => .real x

/-- The quantity of a flag or an integer: a flag counts as 0 or 1. -/
def integer? : Tree → Option Int
  | .flag b => some (if b then 1 else 0)
  | .int n => some n
  | _ => none

/-- Sameness of the trees without parts. Numbers of all kinds are compared as quantities. -/
def sameLeaf : Tree → Tree → Bool
  | .null, .null => true
  | .nan i, .nan j => i == j
  | .real x, .real y => Decimal.equals x y
  | .text s, .text t => s == t
  | .bytes s, .bytes t => s == t
  | .date a, .date b => a == b
  | .moment a, .moment b => a.same b
  | .clock a, .clock b => a == b
  | a, b =>
    match a.integer?, b.integer? with
    | some m, some n => m == n
    | some m, none => match b with
      | .real y => Decimal.equalsInt y m
      | _ => false
    | none, some n => match a with
      | .real x => Decimal.equalsInt x n
      | _ => false
    | none, none => false

mutual

/-- Whether two trees are the same to a collection that holds one of them: 1, 1.0 and true are,
mappings and sets have no order, and a NaN is the same as itself. -/
def same : Tree → Tree → Bool
  | .list xs, .list ys => sameItems xs ys
  | .tuple xs, .tuple ys => sameItems xs ys
  | .mapping es, .mapping fs => es.length == fs.length && sameEntries es fs
  | .set xs, .set ys => xs.length == ys.length && sameMembers xs ys
  | a, b => sameLeaf a b

def sameItems : List Tree → List Tree → Bool
  | [], [] => true
  | x :: xs, y :: ys => same x y && sameItems xs ys
  | _, _ => false

/-- Every entry of the first list has an equal one in the second. -/
def sameEntries : List (Tree × Tree) → List (Tree × Tree) → Bool
  | [], _ => true
  | (k, v) :: es, fs => (fs.any fun f => same k f.1 && same v f.2) && sameEntries es fs

def sameMembers : List Tree → List Tree → Bool
  | [], _ => true
  | x :: xs, ys => ys.any (same x) && sameMembers xs ys

end

/-- Equality of values on their own, which no NaN has. -/
def equals : Tree → Tree → Bool
  | .nan _, _ => false
  | a, b => same a b

mutual

/-- Whether a tree may be a key: it has no part that can change. -/
def isKey : Tree → Bool
  | .list _ | .mapping _ | .set _ => false
  | .tuple items => areKeys items
  | _ => true

def areKeys : List Tree → Bool
  | [] => true
  | x :: xs => isKey x && areKeys xs

end

/-- Looks an equal key up. -/
def lookupKey (key : Tree) (entries : List (Tree × Tree)) : Option (Tree × Tree) :=
  entries.find? fun entry => same entry.1 key

/-- The value of a text key. -/
def get? (entries : List (Tree × Tree)) (key : String) : Option Tree :=
  (lookupKey (.text key) entries).map Prod.snd

/-- An equal key keeps its place and spelling and gets the new value; a new key goes last. -/
def insert (key : Tree) (value : α) : List (Tree × α) → List (Tree × α)
  | [] => [(key, value)]
  | (k, v) :: rest => if same k key then (k, value) :: rest else (k, v) :: insert key value rest

/-- A mapping of the pairs, entered one by one. -/
def ofPairs (pairs : List (Tree × Tree)) : List (Tree × Tree) :=
  pairs.foldl (fun entries pair => insert pair.1 pair.2 entries) []

/-- The members of a set, which have no order of their own: integers ascend, all others stay as
they came. -/
def members (items : List Tree) : List Tree :=
  if items.all (·.integer?.isSome) then
    items.mergeSort fun a b => decide (a.integer?.getD 0 ≤ b.integer?.getD 0)
  else items

def text? : Tree → Option String
  | .text s => some s
  | _ => none

/-- Nothing, zero, false and whatever has no parts. -/
def isVoid : Tree → Bool
  | .null => true
  | .flag b => !b
  | .int n => n == 0
  | .real x => Decimal.equalsInt x 0
  | .text s => s.isEmpty
  | .list items | .tuple items | .set items => items.isEmpty
  | .mapping entries => entries.isEmpty
  | .bytes value => value.isEmpty
  | .nan _ | .date _ | .moment _ | .clock _ | .cycle => false

mutual

/-- Whether no collection in the tree holds itself. -/
def isFinite : Tree → Bool
  | .cycle => false
  | .list items | .tuple items | .set items => areFinite items
  | .mapping entries => haveFinite entries
  | _ => true

def areFinite : List Tree → Bool
  | [] => true
  | x :: xs => isFinite x && areFinite xs

def haveFinite : List (Tree × Tree) → Bool
  | [] => true
  | (k, v) :: es => isFinite k && isFinite v && haveFinite es

end

/-- A field of a mapping with text keys. -/
def field (key : String) (value : Tree) : Tree × Tree := (.text key, value)

def texts (items : List String) : Tree := .list (items.map .text)

def optional (f : α → Tree) : Option α → Tree
  | none => .null
  | some a => f a

end Tree
end SessionPlan
