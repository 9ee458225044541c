import SessionPlan.Text.Quoted

/-! Text from bytes in UTF-8. A wrong byte is reported with its place and with what is wrong. -/
namespace SessionPlan.Text

/-- What is said where a text would hold half of a character, which no encoding has bytes for. -/
def halfCharacterWords : String := "surrogates not allowed"

inductive Utf8Flaw where
  | start | continuation | truncated
  deriving DecidableEq, Repr

def Utf8Flaw.words : Utf8Flaw → String
  | .start => "invalid start byte"
  | .continuation => "invalid continuation byte"
  | .truncated => "unexpected end of data"

/-- The bytes of `bad`, found at `position`, are no character. -/
structure Utf8Error where
  position : Nat
  bad : List UInt8
  flaw : Utf8Flaw
  deriving DecidableEq, Repr

def Utf8Error.message (e : Utf8Error) : String :=
  let place := match e.bad with
    | [b] =>
      "byte 0x" ++ String.ofList (hex 2 b.toNat) ++ " in position " ++ toString e.position
    | bytes =>
      "bytes in position " ++ toString e.position ++ "-" ++
        toString (e.position + bytes.length - 1)
  "'utf-8' codec can't decode " ++ place ++ ": " ++ e.flaw.words

def isContinuation (b : UInt8) : Bool := 0x80 ≤ b && b < 0xc0

/-- Whether `b` may be the second byte after `lead`: no overlong forms, no surrogates, nothing
past the last code point. -/
def fitsSecond (lead b : UInt8) : Bool :=
  isContinuation b &&
    !(lead == 0xe0 && b < 0xa0) && !(lead == 0xed && b ≥ 0xa0) &&
    !(lead == 0xf0 && b < 0x90) && !(lead == 0xf4 && b ≥ 0x90)

def payload (b : UInt8) : Nat := b.toNat % 64

/-- Number of bytes of the character that `lead` begins. -/
def sequenceLength (lead : UInt8) : Option Nat :=
  if lead < 0x80 then some 1
  else if lead < 0xc2 then none
  else if lead < 0xe0 then some 2
  else if lead < 0xf0 then some 3
  else if lead < 0xf5 then some 4
  else none

/-- What is wrong with the bytes that begin with `lead` and go on with `rest`, of which `length`
belong together: the first byte that does not fit, or the end. -/
def flawAfter (position : Nat) (lead : UInt8) (length : Nat) (rest : List UInt8) : Utf8Error :=
  let good := match rest with
    | [] => []
    | second :: more =>
      if fitsSecond lead second then second :: (more.take (length - 2)).takeWhile isContinuation
      else []
  if good.length < rest.length then ⟨position, lead :: good, .continuation⟩
  else ⟨position, lead :: good, .truncated⟩

/-- Characters of `bytes`, whose first byte stands at `position`. -/
def decodeFrom (position : Nat) : List UInt8 → Except Utf8Error (List Char)
  | [] => .ok []
  | lead :: rest =>
    match sequenceLength lead with
    | none => .error ⟨position, [lead], .start⟩
    | some 1 => do return Char.ofNat lead.toNat :: (← decodeFrom (position + 1) rest)
    | some 2 =>
      match rest with
      | b :: rest' =>
        if fitsSecond lead b then do
          let code := (lead.toNat % 32) * 64 + payload b
          return Char.ofNat code :: (← decodeFrom (position + 2) rest')
        else .error (flawAfter position lead 2 rest)
      | _ => .error (flawAfter position lead 2 rest)
    | some 3 =>
      match rest with
      | b :: c :: rest' =>
        if fitsSecond lead b && isContinuation c then do
          let code := ((lead.toNat % 16) * 64 + payload b) * 64 + payload c
          return Char.ofNat code :: (← decodeFrom (position + 3) rest')
        else .error (flawAfter position lead 3 rest)
      | _ => .error (flawAfter position lead 3 rest)
    | some _ =>
      match rest with
      | b :: c :: d :: rest' =>
        if fitsSecond lead b && isContinuation c && isContinuation d then do
          let code := (((lead.toNat % 8) * 64 + payload b) * 64 + payload c) * 64 + payload d
          return Char.ofNat code :: (← decodeFrom (position + 4) rest')
        else .error (flawAfter position lead 4 rest)
      | _ => .error (flawAfter position lead 4 rest)

def decodeUtf8 (bytes : List UInt8) : Except Utf8Error String :=
  (decodeFrom 0 bytes).map String.ofList

end SessionPlan.Text
