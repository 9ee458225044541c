import SessionPlan.Problem

/-! What can be wrong with YAML text, each flaw with its words. -/
namespace SessionPlan.Yaml
open SessionPlan.Text

inductive Flaw where
  -- characters
  | unprintable (c : Char) (position : Nat)
  -- tokens
  | startsNoToken (c : Char)
  | keyUnfinished
  | entryNotAllowed
  | keyNotAllowed
  | valueNotAllowed
  | nameExpected (found : Char)
  | digitExpected (found : Char)
  | versionPointExpected (found : Char)
  | versionEndExpected (found : Char)
  | spaceExpected (found : Char)
  | lineEndExpected (found : Char)
  | angleExpected (found : Char)
  | bangExpected (found : Char)
  | uriExpected (found : Char)
  | uriDigitExpected (found : Char)
  | uriUndecodable (error : Utf8Error)
  | zeroIndent
  | headerUnknown (found : Char)
  | escapeDigitExpected (count : Nat) (found : Char)
  | escapeUnknown (c : Char)
  | endInQuotes
  | separatorInQuotes
  -- nodes
  | versionTwice
  | versionUnknown
  | handleTwice (handle : String)
  | handleUndefined (handle : String)
  | documentStartExpected (found : String)
  | contentExpected (found : String)
  | blockEndExpected (found : String)
  | sequenceGoesOn (found : String)
  | mappingGoesOn (found : String)
  | aliasUndefined (name : String)
  | anchorTwice
  | documentTwice
  -- values
  | keyChanges
  | kindExpected (wanted found : String)
  | mergeExpected (found : String)
  | mergeItemExpected (found : String)
  | orderedSequenceExpected (found : String)
  | orderedItemExpected (found : String)
  | orderedItemCount (count : Nat)
  | tagUnknown (tag : String)
  | binaryNotAscii (words : String)
  | binaryUndecodable (words : String)
  deriving DecidableEq, Repr

def quotedChar (c : Char) : String := quoted c.toString

/-- At least four hexadecimal digits. -/
def codePoint (n : Nat) : String :=
  String.ofList (if n < 0x10000 then hex 4 n else if n < 0x100000 then hex 5 n else hex 6 n)

def Flaw.words : Flaw → String
  | .unprintable c position =>
    "unacceptable character #x" ++ codePoint c.toNat ++
      ": special characters are not allowed\n  in \"<unicode string>\", position " ++
      ofNat position
  | .startsNoToken c => "found character " ++ quotedChar c ++ " that cannot start any token"
  | .keyUnfinished => "could not find expected ':'"
  | .entryNotAllowed => "sequence entries are not allowed here"
  | .keyNotAllowed => "mapping keys are not allowed here"
  | .valueNotAllowed => "mapping values are not allowed here"
  | .nameExpected c => "expected alphabetic or numeric character, but found " ++ quotedChar c
  | .digitExpected c => "expected a digit, but found " ++ quotedChar c
  | .versionPointExpected c => "expected a digit or '.', but found " ++ quotedChar c
  | .versionEndExpected c => "expected a digit or ' ', but found " ++ quotedChar c
  | .spaceExpected c => "expected ' ', but found " ++ quotedChar c
  | .lineEndExpected c => "expected a comment or a line break, but found " ++ quotedChar c
  | .angleExpected c => "expected '>', but found " ++ quotedChar c
  | .bangExpected c => "expected '!', but found " ++ quotedChar c
  | .uriExpected c => "expected URI, but found " ++ quotedChar c
  | .uriDigitExpected c =>
    "expected URI escape sequence of 2 hexadecimal numbers, but found " ++ quotedChar c
  | .uriUndecodable error => error.message
  | .zeroIndent => "expected indentation indicator in the range 1-9, but found 0"
  | .headerUnknown c => "expected chomping or indentation indicators, but found " ++ quotedChar c
  | .escapeDigitExpected count c =>
    "expected escape sequence of " ++ ofNat count ++ " hexadecimal numbers, but found " ++
      quotedChar c
  | .escapeUnknown c => "found unknown escape character " ++ quotedChar c
  | .endInQuotes => "found unexpected end of stream"
  | .separatorInQuotes => "found unexpected document separator"
  | .versionTwice => "found duplicate YAML directive"
  | .versionUnknown => "found incompatible YAML document (version 1.* is required)"
  | .handleTwice handle => "duplicate tag handle " ++ quoted handle
  | .handleUndefined handle => "found undefined tag handle " ++ quoted handle
  | .documentStartExpected found => "expected '<document start>', but found " ++ quoted found
  | .contentExpected found => "expected the node content, but found " ++ quoted found
  | .blockEndExpected found => "expected <block end>, but found " ++ quoted found
  | .sequenceGoesOn found => "expected ',' or ']', but got " ++ quoted found
  | .mappingGoesOn found => "expected ',' or '\x7d', but got " ++ quoted found
  | .aliasUndefined name => "found undefined alias " ++ quoted name
  | .anchorTwice => "second occurrence"
  | .documentTwice => "but found another document"
  | .keyChanges => "found unhashable key"
  | .kindExpected wanted found => "expected a " ++ wanted ++ " node, but found " ++ found
  | .mergeExpected found =>
    "expected a mapping or list of mappings for merging, but found " ++ found
  | .mergeItemExpected found => "expected a mapping for merging, but found " ++ found
  | .orderedSequenceExpected found => "expected a sequence, but found " ++ found
  | .orderedItemExpected found => "expected a mapping of length 1, but found " ++ found
  | .orderedItemCount count =>
    "expected a single mapping item, but found " ++ ofNat count ++ " items"
  | .tagUnknown tag => "could not determine a constructor for the tag " ++ quoted tag
  | .binaryNotAscii words => "failed to convert base64 data into ascii: " ++ words
  | .binaryUndecodable words => "failed to decode base64 data: " ++ words

/-- A flaw and the line it was found on, counted from 0, or a failure of another kind. -/
inductive Error where
  | flaw (flaw : Flaw) (line : Option Nat)
  | fault (fault : Fault)

def Error.failure : Error → Failure
  | .flaw f line =>
    .problem ⟨.yamlUnreadable f.words, line.elim "" fun n => "line " ++ ofNat (n + 1)⟩
  | .fault f => .fault f

end SessionPlan.Yaml
