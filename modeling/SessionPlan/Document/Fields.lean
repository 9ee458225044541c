import SessionPlan.Document.Vocabulary
import SessionPlan.Noted

/-! The fields of one mapping. Keys are read as names of fields; where a field was named more than
once the best name wins, and values that differ from the winner's are reported.

A window or a pane may also be written as a name with its content. Such an entry is first laid out
as pairs of a field and a value, in which the entry's own name and content outrank all others. -/
namespace SessionPlan.Document

/-- A key with its value. A leading pair comes from the way an entry is written. -/
structure Pair where
  key : Tree
  value : Tree
  leading : Bool

/-- A value given for a field. The lower the rank, the stronger the name. -/
structure Occurrence (F : Type) where
  field : F
  rank : Nat
  key : String
  value : Tree

variable {F : Type} [DecidableEq F]

def Pair.occurrence (v : Vocabulary F) (path : String) (p : Pair) :
    Except Failure (Occurrence F) :=
  match v.keyField? p.key with
  | some (key, field, rank) => .ok ⟨field, if p.leading then 0 else rank + 1, key, p.value⟩
  | none => reject (.fieldUnknown v.entity p.key) path

/-- Occurrences of a field, the strongest first and equals in their order. -/
def ranked (field : F) (found : List (Occurrence F)) : List (Occurrence F) :=
  (found.filter (·.field = field)).mergeSort fun a b => decide (a.rank ≤ b.rank)

/-- The value of a field in the mapping, if it was given one. -/
def valueOf? (found : List (Occurrence F)) (field : F) : Option Tree :=
  (ranked field found).head?.map (·.value)

def conflictsOf (v : Vocabulary F) (path : String) (found : List (Occurrence F)) (field : F) :
    List Conflict :=
  match ranked field found with
  | [] => []
  | winner :: others =>
    (others.filter fun o => !o.value.equals winner.value).map fun o =>
      ⟨v.entity, path, v.canonical field, winner.key, o.key⟩

/-- Conflicts field by field, in the order in which the fields first came. -/
def conflicts (v : Vocabulary F) (path : String) (found : List (Occurrence F)) : List Conflict :=
  (found.map (·.field)).eraseDups.flatMap (conflictsOf v path found)

/-- Reads pairs as fields. A key that names no field is an error. -/
def readFields (v : Vocabulary F) (path : String) (pairs : List Pair) :
    Noted Conflict Failure (F → Option Tree) := do
  let found ← Noted.lift (pairs.mapM (Pair.occurrence v path))
  Noted.noteAll (conflicts v path found)
  return valueOf? found

/-- A value that can be written as a plain word: a text or a number. -/
def isScalar : Tree → Bool
  | .text _ | .int _ | .real _ | .nan _ => true
  | _ => false

def plainPairs (entries : List (Tree × Tree)) : List Pair :=
  entries.map fun (key, value) => ⟨key, value, false⟩

/-- The name of an entry written as a name with its content. A null or empty name is none. -/
def entryName (entity : Entity) (path : String) : Tree → Except Failure (List Pair)
  | .null => .ok []
  | .text "" => .ok []
  | name =>
    if isScalar name then do return [⟨.text "name", .text (← name.written), true⟩]
    else reject (.entryNameKind entity name) path

/-- The content that goes with an entry's name: fields, or else the value of `content`. -/
def entryContent (v : Vocabulary F) (content : String) (path : String) (name : Tree) :
    Tree → Except Failure (List Pair)
  | .mapping nested =>
    match nested.find? fun (key, _) => (v.keyField? key).isNone with
    | some (key, _) => reject (.nestedFieldUnknown v.entity key name) path
    | none => .ok (plainPairs nested)
  | .flag b => reject (.entryAmbiguous v.entity name (.flag b)) path
  | .null => .ok []
  | value => .ok [⟨.text content, value, true⟩]

/-- Lays out the mapping of a window or a pane. If its first key names a field it is a plain
definition; otherwise that key is the entry's name. -/
def entryPairs (v : Vocabulary F) (content : String) (path : String) :
    List (Tree × Tree) → Except Failure (List Pair)
  | [] => reject (.entryEmpty v.entity) path
  | (name, value) :: rest => do
    if (v.keyField? name).isSome then return plainPairs ((name, value) :: rest)
    let named ← entryName v.entity path name
    let filled ← entryContent v content path name value
    if rest.any fun (key, _) => key matches .null then reject .lateNullName path
    return named ++ filled ++ plainPairs rest

end SessionPlan.Document
