/-! Finding, replacing and cutting inside text. -/
namespace SessionPlan.Text

/-- Replaces the occurrences of `old` from left to right; `skip` counts the characters that
belong to an occurrence already replaced. -/
def replaceFrom (old new : List Char) : Nat → List Char → List Char
  | _, [] => []
  | skip + 1, _ :: rest => replaceFrom old new skip rest
  | 0, c :: rest =>
    if old.isPrefixOf (c :: rest) then new ++ replaceFrom old new (old.length - 1) rest
    else c :: replaceFrom old new 0 rest

/-- Every occurrence of a non-empty `old` gives way to `new`, left to right and once. -/
def replace (s old new : String) : String :=
  String.ofList (replaceFrom old.toList new.toList 0 s.toList)

/-- The pieces of a text between the separators. -/
def splitList (separator : Char) : List Char → List (List Char)
  | [] => [[]]
  | c :: rest =>
    match splitList separator rest with
    | [] => [[c]]
    | piece :: pieces =>
      if c = separator then [] :: piece :: pieces else (c :: piece) :: pieces

def split (s : String) (separator : Char) : List String :=
  (splitList separator s.toList).map String.ofList

theorem splitList_ne_nil (separator : Char) (s : List Char) : splitList separator s ≠ [] := by
  cases s with
  | nil => simp [splitList]
  | cons c rest => simp only [splitList]; split <;> (try split) <;> simp

def join (separator : String) (pieces : List String) : String := separator.intercalate pieces

def contains (s : String) (c : Char) : Bool := s.toList.contains c

def startsWith (s start : String) : Bool := start.toList.isPrefixOf s.toList

/-- `s` without the first `n` characters. -/
def dropFirst (n : Nat) (s : String) : String := String.ofList (s.toList.drop n)

def takeFirst (n : Nat) (s : String) : String := String.ofList (s.toList.take n)

/-- `s` without the occurrences of `c` at its end. -/
def dropTrailing (c : Char) (s : String) : String :=
  String.ofList (s.toList.reverse.dropWhile (· == c)).reverse

/-- ASCII letters in lower case, all else as it is. -/
def lowerAscii (s : String) : String := String.ofList (s.toList.map Char.toLower)

end SessionPlan.Text
