import SessionPlan.Tree.Shown

/-! Trees as JSON text: one item a line, two spaces of indent a level, characters beyond ASCII as
they are. -/
namespace SessionPlan.Json
open SessionPlan.Text

def namedEscapes : List (Char × Char) :=
  [('"', '"'), ('\\', '\\'), ('\n', 'n'), ('\r', 'r'), ('\t', 't'), ('\x08', 'b'), ('\x0c', 'f')]

def escapedChar (c : Char) : List Char :=
  match namedEscapes.lookup c with
  | some name => ['\\', name]
  | none => if c.toNat < 0x20 then '\\' :: 'u' :: hex 4 c.toNat else [c]

def stringText (s : String) : String :=
  String.ofList ('"' :: s.toList.flatMap escapedChar ++ ['"'])

/-- The same numbers as in messages, with the names that the reader knows. -/
def numberLayout : Decimal.Layout :=
  { Tree.numberLayout with infinityText := "Infinity", nanText := "NaN" }

/-- Text of a value without parts. -/
def scalarText : Tree → String
  | .null => "null"
  | .flag b => if b then "true" else "false"
  | .int n => ofInt n
  | .real x => numberLayout.text x
  | .nan _ => numberLayout.nanText
  | other => stringText other.plain

/-- Keys are strings; those that are not are written as one. -/
def keyText : Tree → String
  | .text s => stringText s
  | .null => stringText "null"
  | key => stringText (scalarText key)

def newLine (depth : Nat) : String := "\n" ++ String.ofList (List.replicate (2 * depth) ' ')

/-- Lines of the parts between two brackets; nothing stands between the brackets of no parts. -/
def bracketed (depth : Nat) (opening closing : String) (parts : List String) : String :=
  if parts.isEmpty then opening ++ closing
  else opening ++ join "," (parts.map (newLine (depth + 1) ++ ·)) ++ newLine depth ++ closing

mutual

def render (depth : Nat) : Tree → String
  | .list items => bracketed depth "[" "]" (renderItems (depth + 1) items)
  | .tuple items => bracketed depth "[" "]" (renderItems (depth + 1) items)
  | .mapping entries => bracketed depth "\x7b" "\x7d" (renderEntries (depth + 1) entries)
  | other => scalarText other

def renderItems (depth : Nat) : List Tree → List String
  | [] => []
  | x :: xs => render depth x :: renderItems depth xs

def renderEntries (depth : Nat) : List (Tree × Tree) → List String
  | [] => []
  | (key, value) :: rest =>
    (keyText key ++ ": " ++ render depth value) :: renderEntries depth rest

end

/-- A whole document ends with a line feed. -/
def documentText (t : Tree) : String := render 0 t ++ "\n"

end SessionPlan.Json
