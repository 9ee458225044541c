import SessionPlan.Tree.Shown

/-! What can be wrong with TOML text, and where. -/
namespace SessionPlan.Toml
open SessionPlan.Text

/-- A key of one or more parts. -/
abbrev Key := List String

inductive Flaw where
  | statement
  | lineEnd
  | keyStart
  | equals
  | value
  | tableEnd
  | arrayTableEnd
  | arrayOpen
  | inlineOpen
  | overwritten
  | declaredTwice (key : Key)
  | redefined (key : Key)
  | immutable (key : Key)
  | inlineKeyTwice (name : String)
  | quoteMissing (quote : String)
  | characterInvalid (c : Char)
  | characterIllegal (c : Char)
  | stringOpen
  | escape
  | hexDigits
  | notScalar
  | date
  /-- An integer has more digits than are allowed. -/
  | overlong (digits : Nat)
  deriving DecidableEq, Repr

def keyText (key : Key) : String := (Tree.tuple (key.map .text)).quoted

def Flaw.words : Flaw → String
  | .statement => "Invalid statement"
  | .lineEnd => "Expected newline or end of document after a statement"
  | .keyStart => "Invalid initial character for a key part"
  | .equals => "Expected '=' after a key in a key/value pair"
  | .value => "Invalid value"
  | .tableEnd => "Expected ']' at the end of a table declaration"
  | .arrayTableEnd => "Expected ']]' at the end of an array declaration"
  | .arrayOpen => "Unclosed array"
  | .inlineOpen => "Unclosed inline table"
  | .overwritten => "Cannot overwrite a value"
  | .declaredTwice key => "Cannot declare " ++ keyText key ++ " twice"
  | .redefined key => "Cannot redefine namespace " ++ keyText key
  | .immutable key => "Cannot mutate immutable namespace " ++ keyText key
  | .inlineKeyTwice name => "Duplicate inline table key " ++ quoted name
  | .quoteMissing quote => "Expected " ++ quoted quote
  | .characterInvalid c => "Found invalid character " ++ quoted c.toString
  | .characterIllegal c => "Illegal character " ++ quoted c.toString
  | .stringOpen => "Unterminated string"
  | .escape => "Unescaped '\\' in a string"
  | .hexDigits => "Invalid hex value"
  | .notScalar => "Escaped character is not a Unicode scalar value"
  | .date => "Invalid date or datetime"
  | .overlong digits => overlongWords digits

/-- A flaw, and the text that begins where it was found. -/
structure Error where
  flaw : Flaw
  rest : List Char

/-- Where the text `rest` begins in the whole text: line and column, counted from 1. -/
def placeOf (whole rest : List Char) : String :=
  if rest.isEmpty then "end of document"
  else
    let before := whole.take (whole.length - rest.length)
    let line := before.count '\n' + 1
    let column := (before.reverse.takeWhile (· != '\n')).length + 1
    "line " ++ ofNat line ++ ", column " ++ ofNat column

def Error.message (whole : List Char) (e : Error) : String :=
  e.flaw.words ++ " (at " ++ placeOf whole e.rest ++ ")"

/-- What comes of text that is no document: a message, save for integers that are too long. -/
inductive Refusal where
  | message (words : String)
  | overlong (digits : Nat)
  deriving DecidableEq, Repr

def Error.refusal (whole : List Char) (e : Error) : Refusal :=
  match e.flaw with
  | .overlong digits => .overlong digits
  | _ => .message (e.message whole)

end SessionPlan.Toml
