/-! White space and line breaks, as they are understood in user text: every script's spaces
count, and a line may end at any of the vertical separators. -/
namespace SessionPlan.Text

def isBlank (c : Char) : Bool :=
  let n := c.toNat
  (0x9 ≤ n && n ≤ 0xd) || (0x1c ≤ n && n ≤ 0x20) || n == 0x85 || n == 0xa0 || n == 0x1680 ||
    (0x2000 ≤ n && n ≤ 0x200a) || n == 0x2028 || n == 0x2029 || n == 0x202f || n == 0x205f ||
    n == 0x3000

/-- Characters that may stand around a number: blanks, save the separators of ASCII. -/
def isMargin (c : Char) : Bool := isBlank c && !(0x1c ≤ c.toNat && c.toNat ≤ 0x1f)

/-- Characters of `s` after its leading blanks. -/
def dropBlanks (s : List Char) : List Char := s.dropWhile isBlank

/-- Characters of `s` up to the last that `p` does not hold of. -/
def dropTrailingWhile (p : Char → Bool) (s : List Char) : List Char :=
  (s.reverse.dropWhile p).reverse

/-- Characters of `s` up to its trailing blanks. -/
def dropTrailingBlanks (s : List Char) : List Char := dropTrailingWhile isBlank s

def strip (s : String) : String := String.ofList (dropTrailingBlanks (dropBlanks s.toList))

/-- A number without what stands around it. -/
def withoutMargins (s : List Char) : List Char := dropTrailingWhile isMargin (s.dropWhile isMargin)

def stripEnd (s : String) : String := String.ofList (dropTrailingBlanks s.toList)

def isBlankText (s : String) : Bool := s.toList.all isBlank

/-- Characters that end a line. -/
def breaksLine (c : Char) : Bool :=
  let n := c.toNat
  (0xa ≤ n && n ≤ 0xd) || (0x1c ≤ n && n ≤ 0x1e) || n == 0x85 || n == 0x2028 || n == 0x2029

/-- The lines of `s`, where `line` holds the characters of the current one, last first. -/
def linesFrom (line : List Char) : List Char → List (List Char)
  | [] => if line.isEmpty then [] else [line.reverse]
  | '\r' :: '\n' :: rest => line.reverse :: linesFrom [] rest
  | c :: rest =>
    if breaksLine c then line.reverse :: linesFrom [] rest else linesFrom (c :: line) rest

/-- Lines without their ends. A carriage return and line feed end one line together, and a text
that ends in a break has no empty last line. -/
def lines (s : String) : List String := (linesFrom [] s.toList).map String.ofList

example : linesFrom [] "a\r\nb\n\nc".toList = ["a".toList, "b".toList, [], "c".toList] := by decide

/-- Carriage returns, alone or before a line feed, become line feeds. -/
def unifyNewlines : List Char → List Char
  | [] => []
  | '\r' :: '\n' :: rest => '\n' :: unifyNewlines rest
  | c :: rest => (if c = '\r' then '\n' else c) :: unifyNewlines rest

end SessionPlan.Text
