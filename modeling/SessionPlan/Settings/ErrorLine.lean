import SessionPlan.Surroundings

/-! The line of a settings file that an error message points at. -/
namespace SessionPlan.Settings
open SessionPlan.Text

/-- Whether a character is a letter, up to case. The letters i with and without a dot are one. -/
def isLetter (letter c : Char) : Bool :=
  c.toLower == letter || (letter == 'i' && (c == 'ı' || c == 'İ'))

/-- What follows the word `line` at the start of a text. -/
def afterLineWord? : List Char → Option (List Char)
  | l :: i :: n :: e :: rest =>
    if isLetter 'l' l && isLetter 'i' i && isLetter 'n' n && isLetter 'e' e then some rest else none
  | _ => none

/-- The digits at the start of a text that begins with blanks. -/
def digitsAfterBlanks? : List Char → Option (List Char)
  | [] => none
  | c :: rest =>
    let digits := (dropBlanks rest).takeWhile isDecimal
    if isBlank c && !digits.isEmpty then some digits else none

/-- The digits of the first mention of a line. -/
def mentionedDigits? : List Char → Option (List Char)
  | [] => none
  | c :: rest => ((afterLineWord? (c :: rest)).bind digitsAfterBlanks?).or (mentionedDigits? rest)

/-- The number of the first mention of a line. -/
def mentionedLine? (message : List Char) : Option Nat :=
  (mentionedDigits? message).bind (digitsValue? 0 false)

example : mentionedLine? "Flaw (at line 12, column 3)".toList = some 12 := by decide
example : mentionedLine? "line x, LINE 7".toList = some 7 := by decide

/-- An error message with the line that it mentions. -/
structure ErrorLine where
  number : Option Nat
  content : Option String
  raw : String
  deriving DecidableEq, Repr

/-- Longer lines are cut before they are shown. -/
def shownLine (content : String) : String :=
  if 50 < content.length then takeFirst 50 content ++ "..." else content

namespace ErrorLine

/-- Lines count from 1, so line 0 is none. -/
def position? (e : ErrorLine) : Option Nat := e.number.filter (0 < ·)

def message (e : ErrorLine) : String :=
  match e.position? with
  | none => "TOML parse error: " ++ e.raw
  | some n =>
    let line := (e.content.filter (!·.isEmpty)).map fun content => ": " ++ shownLine content
    "Error on line " ++ ofNat n ++ line.getD "" ++ "\n\nDetails: " ++ e.raw

end ErrorLine

/-- Line `number` of a text, without the blanks at its end. -/
def lineOf? (text : String) (number : Nat) : Option String :=
  ((lines (Surroundings.plainText text))[number - 1]?).map stripEnd

/-- The line that `message` mentions, out of the file at `path`. A file that cannot be read shows
none, but the file is looked for only if there is a line to show. The number may be too long. -/
def errorLine (s : Surroundings) (path message : String) : Except Failure ErrorLine := do
  let digits := ((mentionedDigits? message.toList).getD []).length
  if digitLimit < digits then throw (.fault (.unreadable digits))
  let bare : ErrorLine := ⟨mentionedLine? message.toList, none, message⟩
  let some n := bare.position? | return bare
  if !(← s.isPresent path) then return bare
  match s.read path with
  | .ok bytes =>
    let text ← (Surroundings.decode bytes).mapError .fault
    return { bare with content := lineOf? text n }
  | .error _ => return bare

end SessionPlan.Settings
