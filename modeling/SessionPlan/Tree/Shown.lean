import SessionPlan.Decimal.Layout
import SessionPlan.Text.Integer
import SessionPlan.Text.Quoted
import SessionPlan.Text.Search
import SessionPlan.Tree.Basic

/-! How messages show trees: the kind of a value by name, a value quoted with its structure, and
the plain text of a scalar. -/
namespace SessionPlan.Tree
open SessionPlan.Text

/-- Numbers are positional from `0.0001` up to sixteen digits before the point; an exponent has
two digits or more. -/
def numberLayout : Decimal.Layout := ⟨-4, 16, 2, "inf", "nan"⟩

def realText (x : Float) : String := numberLayout.text x

def kindName : Tree → String
  | .null => "NoneType"
  | .flag _ => "bool"
  | .int _ => "int"
  | .real _ | .nan _ => "float"
  | .text _ => "str"
  | .list _ => "list"
  | .tuple _ => "tuple"
  | .mapping _ => "dict"
  | .set _ => "set"
  | .bytes _ => "bytes"
  | .date _ => "date"
  | .moment _ => "datetime"
  | .clock _ => "time"
  | .cycle => "cycle"

mutual

/-- The integers in a tree, those in its keys included. -/
def integers : Tree → List Int
  | .int n => [n]
  | .list items | .tuple items | .set items => itemIntegers items
  | .mapping entries => entryIntegers entries
  | _ => []

def itemIntegers : List Tree → List Int
  | [] => []
  | x :: xs => integers x ++ itemIntegers xs

def entryIntegers : List (Tree × Tree) → List Int
  | [] => []
  | (key, value) :: rest => integers key ++ integers value ++ entryIntegers rest

end

/-- Whether a tree can be written: no integer in it has too many digits. -/
def isWritable (t : Tree) : Bool := t.integers.all Text.isWritable

mutual

/-- A value as messages quote it: texts in quotes, collections with their parts. -/
def quoted : Tree → String
  | .null => "None"
  | .flag b => if b then "True" else "False"
  | .int n => ofInt n
  | .real x => realText x
  | .nan _ => numberLayout.nanText
  | .text s => Text.quoted s
  | .list items => "[" ++ join ", " (quotedItems items) ++ "]"
  | .tuple [x] => "(" ++ quoted x ++ ",)"
  | .tuple items => "(" ++ join ", " (quotedItems items) ++ ")"
  | .mapping entries => "\x7b" ++ join ", " (quotedEntries entries) ++ "\x7d"
  | .set [] => "set()"
  | .set items => "\x7b" ++ join ", " (quotedItems items) ++ "\x7d"
  | .bytes value => quotedBytes value
  | .date value => value.quoted
  | .moment value => value.quoted
  | .clock value => value.quoted
  | .cycle => "..."

def quotedItems : List Tree → List String
  | [] => []
  | x :: xs => quoted x :: quotedItems xs

def quotedEntries : List (Tree × Tree) → List String
  | [] => []
  | (k, v) :: es => (quoted k ++ ": " ++ quoted v) :: quotedEntries es

end

/-- The text a value stands for where a text is wanted. Like `quoted` it knows no limit of digits:
whether it can be written is asked of `isWritable`. -/
def plain : Tree → String
  | .text s => s
  | .date value => value.text
  | .moment value => value.text
  | .clock value => value.text
  | other => quoted other

end SessionPlan.Tree
