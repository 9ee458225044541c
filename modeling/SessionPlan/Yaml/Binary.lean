import SessionPlan.Yaml.Flaw

/-! Bytes in base 64. Characters that are no digits are skipped; padding ends the text once it
fills a group of four. -/
namespace SessionPlan.Yaml

def base64Value? (c : Char) : Option Nat :=
  if 'A' ≤ c && c ≤ 'Z' then some (c.toNat - 65)
  else if 'a' ≤ c && c ≤ 'z' then some (c.toNat - 71)
  else if '0' ≤ c && c ≤ '9' then some (c.toNat + 4)
  else if c = '+' then some 62
  else if c = '/' then some 63
  else none

/-- Digits read in the current group, with their bits that make no byte yet, the padding seen
since the last digit, and the bytes so far, last first. -/
structure Base64 where
  position : Nat
  left : Nat
  pads : Nat
  bytes : List UInt8

namespace Base64

def digit (s : Base64) (n : Nat) : Base64 :=
  match s.position with
  | 0 => ⟨1, n, 0, s.bytes⟩
  | 1 => ⟨2, n % 16, 0, UInt8.ofNat (s.left * 4 + n / 16) :: s.bytes⟩
  | 2 => ⟨3, n % 4, 0, UInt8.ofNat (s.left * 16 + n / 4) :: s.bytes⟩
  | _ => ⟨0, 0, 0, UInt8.ofNat (s.left * 64 + n) :: s.bytes⟩

def finish (s : Base64) : Except Flaw (List UInt8) :=
  if s.position = 0 then .ok s.bytes.reverse
  else if s.position = 1 then
    .error (.binaryUndecodable
      ("Invalid base64-encoded string: number of data characters (" ++
        Text.ofNat (s.bytes.length / 3 * 4 + 1) ++
        ") cannot be 1 more than a multiple of 4"))
  else .error (.binaryUndecodable "Incorrect padding")

def decode (s : Base64) : List Char → Except Flaw (List UInt8)
  | [] => s.finish
  | c :: rest =>
    if c = '=' then
      if 2 ≤ s.position && 4 ≤ s.position + (s.pads + 1) then .ok s.bytes.reverse
      else decode { s with pads := if 2 ≤ s.position then s.pads + 1 else s.pads } rest
    else match base64Value? c with
      | some n => decode (s.digit n) rest
      | none => decode s rest

end Base64

/-- The run of characters past ASCII that begins at a position, if there is one. -/
def firstNonAscii? (position : Nat) : List Char → Option (Nat × List Char)
  | [] => none
  | c :: rest =>
    if c.toNat < 0x80 then firstNonAscii? (position + 1) rest
    else some (position, (c :: rest).takeWhile fun d => 0x80 ≤ d.toNat)

def nonAsciiWords (position : Nat) (run : List Char) : String :=
  let place := match run with
    | [c] =>
      "character '" ++ String.ofList (Text.hexEscape c.toNat) ++ "' in position " ++
        Text.ofNat position
    | _ =>
      "characters in position " ++ Text.ofNat position ++ "-" ++
        Text.ofNat (position + run.length - 1)
  "'ascii' codec can't encode " ++ place ++ ": ordinal not in range(128)"

def decodeBase64 (text : String) : Except Flaw (List UInt8) :=
  match firstNonAscii? 0 text.toList with
  | some (position, run) => .error (.binaryNotAscii (nonAsciiWords position run))
  | none => Base64.decode ⟨0, 0, 0, []⟩ text.toList

end SessionPlan.Yaml
