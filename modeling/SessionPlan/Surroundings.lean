import SessionPlan.Path
import SessionPlan.Problem

/-! What a run sees of the machine: environment variables, the current directory and the files
below it. All of it is a value, so a run is a function of it. -/
namespace SessionPlan
open SessionPlan.Path

inductive Content where
  | bytes (value : List UInt8)
  /-- The file is there but may not be opened. -/
  | denied
  deriving DecidableEq, Repr

/-- What a path leads to. -/
inductive Entry where
  | missing
  /-- A part before the last is a file. -/
  | behindFile
  /-- The path or one of its parts is longer than a name may be. -/
  | overlong
  | directory
  | file (content : Content)
  deriving DecidableEq, Repr

structure Surroundings where
  environ : List (String × String)
  /-- Absolute path of the current directory. -/
  directory : String
  /-- Files by their path below the current directory. -/
  files : List (String × Content)
  deriving DecidableEq, Repr

namespace Surroundings

def value? (s : Surroundings) (name : String) : Option String := s.environ.lookup name

def home (s : Surroundings) : String := (s.value? "HOME").getD ""

/-- The directory that a variable names for all programs, else the usual one at home. A relative
one does not count. -/
def baseDirectory (s : Surroundings) (name usual : String) : String :=
  match (s.value? name).filter fun path => Text.startsWith path "/" with
  | some path => path
  | none => atHome s.home usual

/-- What lies at the segments `place` below the current directory. -/
def entryBelow (s : Surroundings) (place : List String) : Entry :=
  match s.files.find? fun file => parts file.1 == place with
  | some file => .file file.2
  | none =>
    if place.isEmpty || s.files.any fun file => place.isPrefixOf (parts file.1) then .directory
    else .missing

/-- Directories that every machine has at its root. -/
def rootDirectories : List String :=
  ["bin", "boot", "dev", "etc", "home", "lib", "media", "mnt", "opt", "proc", "root", "run", "sbin",
   "srv", "sys", "tmp", "usr", "var"]

/-- What lies at an absolute place. Outside the current directory only its parents are known and
what every machine has. -/
def entryAt (s : Surroundings) (place : List String) : Entry :=
  let base := parts s.directory
  if base.isPrefixOf place then s.entryBelow (place.drop base.length)
  else if place.isPrefixOf base then .directory
  else if place == ["dev", "null"] then .file (.bytes [])
  else
    match place with
    | [name] => if rootDirectories.contains name then .directory else .missing
    | _ => .missing

/-- The longest name in a directory, in bytes. -/
def nameLimit : Nat := 255

/-- The longest path, in bytes. -/
def pathLimit : Nat := 4095

/-- Follows a path segment by segment; `place` is where it has come, last segment first. The root
is its own parent. -/
def follow (s : Surroundings) (place : List String) : List String → Entry
  | [] => s.entryAt place.reverse
  | part :: rest =>
    match s.entryAt place.reverse with
    | .directory =>
      if part == ".." then s.follow place.tail rest
      else if nameLimit < part.utf8ByteSize then .overlong
      else s.follow (part :: place) rest
    | .file _ => .behindFile
    | other => other

def entry (s : Surroundings) (path : String) : Entry :=
  if pathLimit < path.utf8ByteSize then .overlong
  else if leadingSlashes path = 0 then s.follow (parts s.directory).reverse (parts path)
  else s.follow [] (parts path)

/-- Whether there is a file or directory. A path with a zero byte leads nowhere. -/
def isPresent (s : Surroundings) (path : String) : Except Failure Bool :=
  if Text.contains path '\x00' then .ok false
  else match s.entry path with
    | .missing | .behindFile => .ok false
    | .overlong => .error (.fault .nameTooLong)
    | .directory | .file _ => .ok true

/-- Why a file gives no bytes. -/
inductive Unreadable where
  | missing
  | denied
  | fault (fault : Fault)

def read (s : Surroundings) (path : String) : Except Unreadable (List UInt8) :=
  if Text.contains path '\x00' then .error (.fault .zeroByte)
  else match s.entry path with
    | .missing => .error .missing
    | .behindFile => .error (.fault .notDirectory)
    | .overlong => .error (.fault .nameTooLong)
    | .directory => .error (.fault (.isDirectory path))
    | .file .denied => .error .denied
    | .file (.bytes value) => .ok value

/-- Bytes of a file as text. -/
def decode (bytes : List UInt8) : Except Fault String :=
  (Text.decodeUtf8 bytes).mapError Fault.undecodable

/-- Text in which all line ends are line feeds. -/
def plainText (text : String) : String := String.ofList (Text.unifyNewlines text.toList)

end Surroundings
end SessionPlan
