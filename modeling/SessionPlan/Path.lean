import SessionPlan.Text.Search

/-! Paths as text: the home directory written `~`, the normal form that live paths are compared
in, and the form in which file paths are shown. Nothing here asks a file system. -/
namespace SessionPlan.Path
open SessionPlan.Text

/-- The place `rest` below the home directory; it is empty or begins with a slash. -/
def atHome (home rest : String) : String :=
  let path := dropTrailing '/' home ++ rest
  if path.isEmpty then "/" else path

/-- The home directory itself. -/
def homeDirectory (home : String) : String := atHome home ""

/-- `~` and `~/…` are resolved against `home`; the names of other accounts are not known here and
stay. A name with a zero byte cannot be asked for: none. -/
def expandHome? (home path : String) : Option String :=
  match path.toList with
  | '~' :: rest =>
    let account := rest.takeWhile (· != '/')
    if account.isEmpty then some (atHome home (String.ofList rest))
    else if account.contains '\x00' then none
    else some path
  | _ => some path

/-- Writes a path below the home directory with `~`. -/
def contractHome (home path : String) : String :=
  let root := dropTrailing '/' (homeDirectory home)
  if !root.isEmpty && (path == root || startsWith path (root ++ "/")) then
    "~" ++ dropFirst root.length path
  else path

/-- How many slashes begin a path: two keep their own meaning, three or more count as one. -/
def leadingSlashes (path : String) : Nat :=
  match path.toList with
  | '/' :: '/' :: '/' :: _ => 1
  | '/' :: '/' :: _ => 2
  | '/' :: _ => 1
  | _ => 0

/-- Segments after `.` and empty ones are dropped and `..` has taken its parent; `kept` holds the
segments so far, last first. -/
def collapse (rooted : Bool) (kept : List String) : List String → List String
  | [] => kept.reverse
  | part :: rest =>
    if part == "" || part == "." then collapse rooted kept rest
    else if part == ".." then
      match kept with
      | [] => collapse rooted (if rooted then [] else [".."]) rest
      | last :: before =>
        if last == ".." then collapse rooted (part :: kept) rest else collapse rooted before rest
    else collapse rooted (part :: kept) rest

def slashes (n : Nat) : String := String.ofList (List.replicate n '/')

/-- The path without detours; `.` if nothing is left. -/
def collapsed (path : String) : String :=
  let count := leadingSlashes path
  let parts := collapse (count != 0) [] (split path '/')
  let text := slashes count ++ join "/" parts
  if text.isEmpty then "." else text

/-- The normal form of a live path; a path that says nothing is none. -/
def normal (path : Option String) : Option String :=
  match path with
  | none => none
  | some p => if p.isEmpty || collapsed p == "." then none else some (collapsed p)

/-- Segments of a file path without empty ones and `.`. -/
def parts (path : String) : List String :=
  (split path '/').filter fun part => part != "" && part != "."

/-- A file path as it is shown: single slashes, no `.`, and `..` left alone. -/
def shown (path : String) : String :=
  let text := slashes (leadingSlashes path) ++ join "/" (parts path)
  if text.isEmpty then "." else text

/-- Like `shown`, with `~` at the start resolved; an unknown account is an error. -/
def shownAtHome? (home path : String) : Option String :=
  match parts path with
  | first :: rest =>
    if leadingSlashes path == 0 && startsWith first "~" then
      (expandHome? home first).bind fun directory =>
        if startsWith directory "~" then none
        else some (slashes (leadingSlashes directory) ++ join "/" (parts directory ++ rest))
    else some (shown path)
  | [] => some (shown path)

def fileName (path : String) : String := (parts path).getLast?.getD ""

/-- Position of the last dot of a file name, if a name stands before it and an ending after. -/
def dotPosition? (name : List Char) : Option Nat :=
  let ending := name.reverse.takeWhile (· != '.')
  if ending.length + 1 < name.length && !ending.isEmpty then some (name.length - ending.length - 1)
  else none

/-- The last part of the file name, with its dot. -/
def extension (path : String) : String :=
  let name := (fileName path).toList
  match dotPosition? name with
  | some n => String.ofList (name.drop n)
  | none => ""

def stem (path : String) : String :=
  let name := (fileName path).toList
  match dotPosition? name with
  | some n => String.ofList (name.take n)
  | none => String.ofList name

end SessionPlan.Path
