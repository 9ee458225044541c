import SessionPlan.Document.Outline
import SessionPlan.Json.Reader
import SessionPlan.Json.Writer
import SessionPlan.Yaml.Value
import SessionPlan.Yaml.Writer

/-! Documents as text, in one of two formats. -/
namespace SessionPlan.Document
open SessionPlan.Text

inductive Format where
  | yaml | json
  deriving DecidableEq, Repr

namespace Format

def name : Format → String
  | .yaml => "yaml"
  | .json => "json"

def all : List Format := [.yaml, .json]

def ofName? (name : String) : Option Format := all.find? (·.name == name)

/-- File name endings and the formats they stand for, whatever their case. -/
def endings : List (String × Format) := [(".yml", .yaml), (".yaml", .yaml), (".json", .json)]

def ofPath? (path : String) : Option Format := endings.lookup (lowerAscii (Path.extension path))

end Format

/-- The format of that name; all else is refused. -/
def format (name : Tree) : Except Failure Format :=
  match name.text?.bind Format.ofName? with
  | some f => .ok f
  | none => reject (.formatUnknown name) ""

/-- What comes of text that is no JSON document. Numbers that are too long are no fault of the
syntax, and none is reported for them. -/
def jsonFailure (text : String) (e : Json.Error) : Failure :=
  match e.flaw with
  | .overlong digits => .fault (.unreadable digits)
  | .halfCharacter => .fault .halfCharacter
  | flaw => .problem ⟨.jsonUnreadable flaw.words, "line " ++ ofNat (Json.lineOf text.toList e.rest)⟩

/-- Reads a document. -/
def parse (f : Format) (text : String) : Except Failure Tree :=
  match f with
  | .yaml => (Yaml.parse text).mapError Yaml.Error.failure
  | .json => (Json.parseChars (some digitLimit) text.toList).mapError (jsonFailure text)

/-- Writes a document. -/
def render (f : Format) (t : Tree) : Except Failure String := do
  ensureWritable t.integers
  match f with
  | .yaml => return Yaml.documentText t
  | .json => return Json.documentText t

/-- The text of a project. The project is laid out before the format's name is looked at. -/
def dump (home : String) (formatName : Tree) (p : Project) : Except Failure String := do
  let tree ← outline home p
  render (← format formatName) tree

end SessionPlan.Document
