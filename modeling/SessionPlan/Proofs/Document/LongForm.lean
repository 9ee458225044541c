import SessionPlan.Proofs.Failure
import SessionPlan.Proofs.Text.Decimal
import SessionPlan.Document.Build
import Mathlib.Data.List.Nodup

/-! The long form of a window or a pane: a mapping of its fields, whatever way its entry is
written. An entry and its long form come to the same window or pane. -/
namespace SessionPlan.Document

variable {F : Type} [DecidableEq F]

/-- The field that a key names. -/
def Vocabulary.field? (v : Vocabulary F) (key : Tree) : Option F := (v.keyField? key).map (·.2.1)

/-- Every key names a field, and none is named twice. -/
structure NamedOnce (v : Vocabulary F) (entries : List (Tree × Tree)) : Prop where
  known : ∀ entry ∈ entries, (v.field? entry.1).isSome
  distinct : (entries.map fun entry => v.field? entry.1).Nodup

/-- The values of the entries by the field that they are for. -/
def valueIn (v : Vocabulary F) (entries : List (Tree × Tree)) (field : F) : Option Tree :=
  (entries.find? fun entry => v.field? entry.1 = some field).map Prod.snd

/-- The field that an entry's own name goes to. A null or empty name is none. -/
def nameFields : Tree → List (Tree × Tree)
  | .null => []
  | .text "" => []
  | name => [Tree.field "name" (.text name.plain)]

/-- The fields that the value of an entry's own name goes to: those of a definition, or else the
one for content. -/
def valueFields (content : String) : Tree → List (Tree × Tree)
  | .mapping nested => nested
  | .null => []
  | value => [Tree.field content value]

/-- An entry with these fields. Without any it is null. -/
def entryOf : List (Tree × Tree) → Tree
  | [] => .null
  | entry :: rest => .mapping (entry :: rest)

/-- The entry with its name and its content written as fields. -/
def longForm (content : String) : Tree → Tree
  | .mapping ((name, value) :: rest) =>
    entryOf (nameFields name ++ valueFields content value ++ rest)
  | value => .mapping [Tree.field content value]

/-- An entry written as its content alone, or as a name with content and further fields. A flag
after a name could be meant for either, and a name with too many digits could not be written. -/
def IsShort (v : Vocabulary F) (content : String) : Tree → Prop
  | .mapping ((name, value) :: rest) =>
    v.field? name = none ∧ (name = .null ∨ isScalar name = true) ∧
      (∀ n, name = .int n → ¬Text.IsOverlong n) ∧ (∀ b, value ≠ .flag b) ∧
      NamedOnce v (nameFields name ++ valueFields content value ++ rest)
  | .list _ => True
  | value => isScalar value = true

/-! ### Fields that are named once -/

/-- Of items with different marks, at most one has a given mark. -/
theorem filter_eq_toList_find? {α β : Type} [DecidableEq β] {items : List α} {mark : α → β}
    (distinct : (items.map mark).Nodup) (b : β) :
    items.filter (mark · = b) = (items.find? (mark · = b)).toList := by
  induction items with
  | nil => rfl
  | cons a rest ih =>
    obtain ⟨apart, distinct⟩ := List.nodup_cons.mp distinct
    by_cases here : mark a = b
    · have none_later : rest.filter (mark · = b) = [] := by
        refine List.filter_eq_nil_iff.mpr fun other member equal => apart ?_
        rw [here, ← of_decide_eq_true equal]
        exact List.mem_map_of_mem member
      simp [here, none_later]
    · simpa [here] using ih distinct

/-- What a pair gives a field, if its key names one. -/
def Pair.occurrence? (v : Vocabulary F) (p : Pair) : Option (Occurrence F) :=
  (v.keyField? p.key).map fun (key, field, rank) =>
    ⟨field, if p.leading then 0 else rank + 1, key, p.value⟩

omit [DecidableEq F] in
theorem mapM_occurrence_eq_ok {v : Vocabulary F} {pairs : List Pair}
    (known : ∀ p ∈ pairs, (v.field? p.key).isSome) (path : String) :
    pairs.mapM (Pair.occurrence v path) = .ok (pairs.filterMap (Pair.occurrence? v)) := by
  induction pairs with
  | nil => rfl
  | cons p rest ih =>
    have later := ih fun q member => known q (List.mem_cons_of_mem _ member)
    obtain ⟨f, named⟩ := Option.isSome_iff_exists.mp (known p List.mem_cons_self)
    obtain ⟨⟨key, g, rank⟩, found, rfl⟩ := Option.map_eq_some_iff.mp named
    rw [List.mapM_cons, later, Pair.occurrence, found, List.filterMap_cons, Pair.occurrence?, found]
    rfl

omit [DecidableEq F] in
theorem map_occurrence?_of_known {v : Vocabulary F} {pairs : List Pair}
    (known : ∀ p ∈ pairs, (v.field? p.key).isSome) :
    (pairs.filterMap (Pair.occurrence? v)).map (fun o => (some o.field, o.value)) =
      pairs.map fun p => (v.field? p.key, p.value) := by
  induction pairs with
  | nil => rfl
  | cons p rest ih =>
    have later := ih fun q member => known q (List.mem_cons_of_mem _ member)
    obtain ⟨field, named⟩ := Option.isSome_iff_exists.mp (known p List.mem_cons_self)
    obtain ⟨⟨key, f, rank⟩, spelled, rfl⟩ := Option.map_eq_some_iff.mp named
    rw [List.filterMap_cons, Pair.occurrence?, spelled, List.map_cons, named, ← later]
    rfl

/-- Fields that are named once are read as they are, in whatever order and whether they come from
the way the entry is written or not. -/
theorem readFields_of_namedOnce {v : Vocabulary F} {pairs : List Pair}
    {entries : List (Tree × Tree)} (laid : pairs.map (fun p => (p.key, p.value)) = entries)
    (once : NamedOnce v entries) (path : String) :
    readFields v path pairs = pure (valueIn v entries) := by
  subst laid
  have known : ∀ p ∈ pairs, (v.field? p.key).isSome := fun p member =>
    once.known (p.key, p.value) (List.mem_map_of_mem member)
  have made := mapM_occurrence_eq_ok known path
  have same := map_occurrence?_of_known known
  generalize pairs.filterMap (Pair.occurrence? v) = found at made same
  have distinct : (found.map (·.field)).Nodup := by
    have fields := congrArg (List.map Prod.fst) same
    have marks := once.distinct
    rw [List.map_map, List.map_map] at fields
    rw [List.map_map] at marks
    refine List.Nodup.of_map some ?_
    rw [List.map_map]
    exact fields ▸ marks
  have single (f : F) : ranked f found = (found.find? (·.field = f)).toList := by
    rw [ranked, filter_eq_toList_find? distinct]
    cases found.find? (·.field = f) <;> simp
  have silent : conflicts v path found = [] := by
    refine List.flatMap_eq_nil_iff.mpr fun f _ => ?_
    rw [conflictsOf, single]
    cases found.find? (·.field = f) <;> simp
  have values : valueOf? found = valueIn v (pairs.map fun p => (p.key, p.value)) := by
    funext f
    have first := congrArg (fun list => (list.find? (·.1 = some f)).map Prod.snd) same
    simpa [valueOf?, valueIn, single, List.find?_map, Function.comp_def] using first
  rw [readFields, made, Noted.lift_ok, Noted.pure_bind, silent, values]
  rfl

/-! ### Entries with a name -/

theorem isWritable_name {name : Tree} (named : name = .null ∨ isScalar name = true)
    (short : ∀ n, name = .int n → ¬Text.IsOverlong n) : name.isWritable = true := by
  rcases named with rfl | scalar
  · rfl
  · cases name with
    | int n => exact Tree.isWritable_int.mpr (Text.not_isOverlong_iff.mp (short n rfl))
    | text | real | nan => rfl
    | _ => cases scalar

/-- The pair of an entry's own name. A null or empty name has none. -/
def namePairs (name : Tree) : List Pair :=
  (nameFields name).map fun (key, value) => ⟨key, value, true⟩

theorem namePairs_fields (name : Tree) :
    (namePairs name).map (fun p => (p.key, p.value)) = nameFields name := by
  rw [namePairs, List.map_map]
  exact List.map_id _

/-- A name is laid out as its field. -/
theorem entryName_eq_ok {name : Tree} (named : name = .null ∨ isScalar name = true)
    (writable : name.isWritable = true) (entity : Entity) (path : String) :
    entryName entity path name = .ok (namePairs name) := by
  unfold entryName
  split
  · rfl
  · rfl
  · rename_i not_null not_empty
    rw [if_pos (named.resolve_left not_null), Tree.written_eq_ok.mpr ⟨writable, rfl⟩, namePairs,
      nameFields]
    · rfl
    · exact not_null
    · exact not_empty

/-- A name that cannot be written is not laid out. -/
theorem entryName_overlong {n : Int} (long : Text.IsOverlong n) (entity : Entity) (path : String) :
    entryName entity path (.int n) = .error (.fault .unwritable) := by
  rcases (Tree.int n).written_outcome with ⟨writable, -⟩ | ⟨-, failed⟩
  · exact absurd long (Text.not_isOverlong_iff.mpr (Tree.isWritable_int.mp writable))
  · simp only [entryName, isScalar, if_true, failed]
    rfl

theorem plainPairs_entries (entries : List (Tree × Tree)) :
    (plainPairs entries).map (fun p => (p.key, p.value)) = entries := by
  rw [plainPairs, List.map_map]
  exact List.map_id entries

omit [DecidableEq F] in
theorem find?_unknown_eq_none {v : Vocabulary F} {entries : List (Tree × Tree)}
    (known : ∀ entry ∈ entries, (v.field? entry.1).isSome) :
    (entries.find? fun (key, _) => (v.keyField? key).isNone) = none := by
  refine List.find?_eq_none.mpr fun entry member => ?_
  have field := known entry member
  rw [Vocabulary.field?, Option.isSome_map] at field
  simp [Option.isSome_iff_ne_none.mp field]

omit [DecidableEq F] in
/-- The content after a name is laid out as fields. -/
theorem entryContent_eq_ok {v : Vocabulary F} {content : String} (name : Tree) {value : Tree}
    (clear : ∀ b, value ≠ .flag b)
    (known : ∀ entry ∈ valueFields content value, (v.field? entry.1).isSome) (path : String) :
    ∃ pairs, entryContent v content path name value = .ok pairs ∧
      pairs.map (fun p => (p.key, p.value)) = valueFields content value := by
  cases value with
  | null => exact ⟨[], rfl, rfl⟩
  | flag b => exact absurd rfl (clear b)
  | mapping nested =>
    rw [valueFields] at known
    rw [entryContent, find?_unknown_eq_none known]
    exact ⟨_, rfl, plainPairs_entries nested⟩
  | _ => exact ⟨_, rfl, rfl⟩

omit [DecidableEq F] in
/-- A short entry with a name is laid out as the fields of its long form. -/
theorem entryPairs_of_named {v : Vocabulary F} {content : String} {name value : Tree}
    {rest : List (Tree × Tree)} (short : IsShort v content (.mapping ((name, value) :: rest)))
    (path : String) :
    ∃ pairs, entryPairs v content path ((name, value) :: rest) = .ok pairs ∧
      pairs.map (fun p => (p.key, p.value)) =
        nameFields name ++ valueFields content value ++ rest := by
  obtain ⟨unknown, named, short, clear, once⟩ := short
  have writable := isWritable_name named short
  have content_known : ∀ entry ∈ valueFields content value, (v.field? entry.1).isSome :=
    fun entry member => once.known entry (by simp [member])
  obtain ⟨contentRead, readContent, contentSame⟩ := entryContent_eq_ok name clear content_known path
  refine ⟨namePairs name ++ contentRead ++ plainPairs rest, ?_, ?_⟩
  · have unknown : ¬(v.keyField? name).isSome = true := by
      simpa [Vocabulary.field?] using unknown
    rw [entryPairs, if_neg unknown, entryName_eq_ok named writable, ok_bind, readContent, ok_bind]
    split
    · rename_i late
      obtain ⟨⟨key, _⟩, member, null⟩ := List.any_eq_true.mp late
      have field := once.known (key, _) (List.mem_append_right _ member)
      cases key <;> simp_all [Vocabulary.field?, Vocabulary.keyField?]
    · rfl
  · rw [List.map_append, List.map_append, namePairs_fields, contentSame, plainPairs_entries]

omit [DecidableEq F] in
/-- A mapping of fields is laid out as it stands. -/
theorem entryPairs_of_known {v : Vocabulary F} {entries : List (Tree × Tree)}
    (ne_nil : entries ≠ []) (known : ∀ entry ∈ entries, (v.field? entry.1).isSome)
    (content path : String) : entryPairs v content path entries = .ok (plainPairs entries) := by
  obtain ⟨⟨name, value⟩, rest, rfl⟩ := List.exists_cons_of_ne_nil ne_nil
  have first := known _ List.mem_cons_self
  rw [Vocabulary.field?, Option.isSome_map] at first
  rw [entryPairs, if_pos first]
  rfl

/-! ### Windows and panes from their fields -/

variable {home path : String} {index base : Int}

theorem window_entryOf {entries : List (Tree × Tree)}
    (once : NamedOnce windowVocabulary entries) :
    window home path index base (entryOf entries) =
      windowOfFields home path index base (valueIn windowVocabulary entries) := by
  cases entries with
  | nil => rfl
  | cons entry rest =>
    rw [entryOf, window, entryPairs_of_known (List.cons_ne_nil _ _) once.known, Noted.liftM_ok,
      Noted.pure_bind, readFields_of_namedOnce (plainPairs_entries _) once, Noted.pure_bind]

theorem pane_entryOf {entries : List (Tree × Tree)} (once : NamedOnce paneVocabulary entries) :
    pane home path index (entryOf entries) =
      Noted.lift (paneOfFields home path index (valueIn paneVocabulary entries)) := by
  cases entries with
  | nil => rfl
  | cons entry rest =>
    rw [entryOf, pane, entryPairs_of_known (List.cons_ne_nil _ _) once.known, Noted.liftM_ok,
      Noted.pure_bind, readFields_of_namedOnce (plainPairs_entries _) once, Noted.pure_bind]
    rfl

theorem window_named {name value : Tree} {rest : List (Tree × Tree)}
    (short : IsShort windowVocabulary "panes" (.mapping ((name, value) :: rest))) :
    window home path index base (.mapping ((name, value) :: rest)) =
      window home path index base (longForm "panes" (.mapping ((name, value) :: rest))) := by
  obtain ⟨pairs, read, laid⟩ := entryPairs_of_named short path
  obtain ⟨_, _, _, _, once⟩ := short
  rw [longForm, window_entryOf once, window, read, Noted.liftM_ok, Noted.pure_bind,
    readFields_of_namedOnce laid once, Noted.pure_bind]

theorem pane_named {name value : Tree} {rest : List (Tree × Tree)}
    (short : IsShort paneVocabulary "commands" (.mapping ((name, value) :: rest))) :
    pane home path index (.mapping ((name, value) :: rest)) =
      pane home path index (longForm "commands" (.mapping ((name, value) :: rest))) := by
  obtain ⟨pairs, read, laid⟩ := entryPairs_of_named short path
  obtain ⟨_, _, _, _, once⟩ := short
  rw [longForm, pane_entryOf once, pane, read, Noted.liftM_ok, Noted.pure_bind,
    readFields_of_namedOnce laid once, Noted.pure_bind]
  rfl

/-! ### Windows and panes from their content alone -/

omit [DecidableEq F] in
/-- The content field on its own. -/
theorem namedOnce_single {v : Vocabulary F} {content : String} {f : F} {rank : Nat}
    (named : v.find? content = some (f, rank)) (value : Tree) :
    NamedOnce v [Tree.field content value] where
  known := by simp [Tree.field, Vocabulary.field?, Vocabulary.keyField?, named]
  distinct := List.nodup_singleton _

theorem valueIn_single {v : Vocabulary F} {content : String} {f : F} {rank : Nat}
    (named : v.find? content = some (f, rank)) (value : Tree) :
    valueIn v [Tree.field content value] = fun g => if g = f then some value else none := by
  funext g
  by_cases same : f = g
  · simp [valueIn, Tree.field, Vocabulary.field?, Vocabulary.keyField?, named, same]
  · simp [valueIn, Tree.field, Vocabulary.field?, Vocabulary.keyField?, named, same, Ne.symm same]

theorem window_content (value : Tree) :
    window home path index base (.mapping [Tree.field "panes" value]) = (do
      return { index, panes := ← panes home (fieldPath path "panes") base value }) := by
  have named : windowVocabulary.find? "panes" = some (.panes, 0) := by decide
  have written : window home path index base (entryOf [Tree.field "panes" value]) = _ :=
    window_entryOf (namedOnce_single named value)
  rw [entryOf, valueIn_single named] at written
  rw [written]
  rfl

theorem pane_content (value : Tree) :
    pane home path index (.mapping [Tree.field "commands" value]) = (do
      return { index, commands := ← commands (fieldPath path "commands") value }) := by
  have named : paneVocabulary.find? "commands" = some (.commands, 0) := by decide
  have written : pane home path index (entryOf [Tree.field "commands" value]) = _ :=
    pane_entryOf (namedOnce_single named value)
  have alone : paneOfFields home path index (fun f => if f = .commands then some value else none) =
      (do return { index, commands := ← commands (fieldPath path "commands") value }) := rfl
  rw [entryOf, valueIn_single named, alone] at written
  rw [written]
  cases commands (fieldPath path "commands") value <;> rfl

/-- The place of an item is of no account for what is read from it. -/
theorem commandItems_toOption (path path' : String) (position : Nat) (items : List Tree) :
    (commandItems path position items).toOption = (commandItems path' position items).toOption := by
  induction items generalizing position with
  | nil => rfl
  | cons item rest ih =>
    have later := ih (position + 1)
    unfold commandItems
    split
    · rcases item.written_outcome with ⟨-, written⟩ | ⟨-, long⟩
      · rw [written, ok_bind, ok_bind]
        cases read : commandItems path (position + 1) rest <;>
          cases read' : commandItems path' (position + 1) rest <;> simp_all [Except.toOption]
      · rw [long]
        rfl
    · rfl

theorem commands_toOption (path path' : String) (value : Tree) :
    (commands path value).toOption = (commands path' value).toOption := by
  cases value with
  | list items => exact commandItems_toOption path path' 0 items
  | _ => rfl

/-! ### Entries and their long forms -/

theorem longForm_bare {entry : Tree} (bare : ∀ fields, entry ≠ .mapping fields)
    (content : String) : longForm content entry = .mapping [Tree.field content entry] := by
  cases entry with
  | mapping fields => exact absurd rfl (bare fields)
  | _ => rfl

/-- What is no mapping is content, and null is content that is missing. Content of a kind that no
window can have is refused in either form. -/
theorem window_bare {entry : Tree} (bare : ∀ fields, entry ≠ .mapping fields) :
    (window home path index base entry).Agree
      (window home path index base (longForm "panes" entry)) := by
  rw [longForm_bare bare, window_content]
  cases entry with
  | mapping fields => exact absurd rfl (bare fields)
  | null | list _ | text _ | int _ | real _ | nan _ => exact .of_eq rfl
  | flag _ | tuple _ | set _ | bytes _ | date _ | moment _ | clock _ | cycle => exact ⟨rfl, rfl⟩

/-- So it is for panes. Where their commands are at fault, the two forms place the fault
differently. -/
theorem pane_bare {entry : Tree} (bare : ∀ fields, entry ≠ .mapping fields) :
    (pane home path index entry).Agree (pane home path index (longForm "commands" entry)) := by
  have content (value : Tree) :
      Noted.Agree (do return { index, commands := ← liftM (commands path value) })
        (pane home path index (.mapping [Tree.field "commands" value])) := by
    rw [pane_content]
    have read := commands_toOption path (fieldPath path "commands") value
    exact .bind (.lift read) fun lines => .refl _
  rw [longForm_bare bare]
  cases entry with
  | mapping fields => exact absurd rfl (bare fields)
  | list _ | text _ | int _ | real _ | nan _ => exact content _
  | null | flag _ | tuple _ | set _ | bytes _ | date _ | moment _ | clock _ | cycle =>
    rw [pane_content]
    exact ⟨rfl, rfl⟩

/-- A short window entry has the window of its long form, or the failure. -/
theorem window_longForm {entry : Tree} (short : IsShort windowVocabulary "panes" entry) :
    window home path index base entry =
      window home path index base (longForm "panes" entry) := by
  match entry, short with
  | .mapping ((_, _) :: _), short => exact window_named short
  | .list items, _ => exact (window_content (.list items)).symm
  | .text s, _ => exact (window_content (.text s)).symm
  | .int n, _ => exact (window_content (.int n)).symm
  | .real x, _ => exact (window_content (.real x)).symm
  | .nan source, _ => exact (window_content (.nan source)).symm

/-- A short pane entry has the pane of its long form. -/
theorem pane_longForm {entry : Tree} (short : IsShort paneVocabulary "commands" entry) :
    (pane home path index entry).Agree (pane home path index (longForm "commands" entry)) := by
  match entry, short with
  | .mapping ((_, _) :: _), short => exact .of_eq (pane_named short)
  | .list _, _ | .text _, _ | .int _, _ | .real _, _ | .nan _, _ => exact pane_bare nofun

/-! ### Lists of entries -/

/-- The second entry is the first or its long form. -/
def Spelled (v : Vocabulary F) (content : String) (entry entry' : Tree) : Prop :=
  entry' = entry ∨ IsShort v content entry ∧ entry' = longForm content entry

theorem paneList_spelled {position : Nat} {entries entries' : List Tree}
    (spelled : List.Forall₂ (Spelled paneVocabulary "commands") entries entries') :
    (paneList home path base position entries).Agree
      (paneList home path base position entries') := by
  induction spelled generalizing position with
  | nil => exact .refl _
  | @cons entry entry' _ _ first _ ih =>
    have same : (pane home (itemPath path position) (base + position) entry).Agree
        (pane home (itemPath path position) (base + position) entry') := by
      rcases first with rfl | ⟨short, rfl⟩
      · exact .refl _
      · exact pane_longForm short
    exact .bind same fun p => .bind ih fun later => .refl _

theorem windowList_spelled {position : Nat} {entries entries' : List Tree}
    (spelled : List.Forall₂ (Spelled windowVocabulary "panes") entries entries') :
    windowList home index base position entries = windowList home index base position entries' := by
  induction spelled generalizing position with
  | nil => rfl
  | @cons entry entry' _ _ first _ ih =>
    rcases first with rfl | ⟨short, rfl⟩
    · rw [windowList, windowList, ih]
    · rw [windowList, windowList, ih, window_longForm short]

/-- What is no list stands for the list of itself. -/
theorem entryList_single {value : Tree} (single : ∀ items, value ≠ .list items) :
    entryList value = entryList (.list [value]) := by
  cases value with
  | list items => exact absurd rfl (single items)
  | _ => rfl

theorem windows_single {value : Tree} (some : value ≠ .null)
    (single : ∀ items, value ≠ .list items) :
    windows home index base value = windows home index base (.list [value]) := by
  rw [windows, entryList_single single, windows]
  all_goals simp [some]

theorem panes_single {value : Tree} (some : value ≠ .null)
    (single : ∀ items, value ≠ .list items) :
    panes home path base value = panes home path base (.list [value]) := by
  rw [panes, entryList_single single, panes]
  all_goals simp [some]

omit [DecidableEq F] in
theorem entryPairs_overlong (v : Vocabulary F) {n : Int} (long : Text.IsOverlong n)
    (content path : String) (value : Tree) (rest : List (Tree × Tree)) :
    entryPairs v content path ((.int n, value) :: rest) = .error (.fault .unwritable) := by
  have unknown : ¬(v.keyField? (.int n)).isSome = true := Bool.false_ne_true
  rw [entryPairs, if_neg unknown, entryName_overlong long]
  rfl

/-- Every shorthand means its long form. Window entries come to the same window, or fail in the
same way; pane entries come to the same pane, or both fail; and so do lists in which any entries
are replaced by their long forms. Of entries that are no mappings this holds whatever their kind. A
single entry means a list of one. An entry whose name has too many digits to be written has no long
form, and fails. -/
theorem shorthand_longForm (home path : String) (index base : Int) :
    (∀ entry, IsShort windowVocabulary "panes" entry →
      window home path index base entry = window home path index base (longForm "panes" entry)) ∧
    (∀ entry, IsShort paneVocabulary "commands" entry →
      (pane home path index entry).Agree (pane home path index (longForm "commands" entry))) ∧
    (∀ entry, (∀ fields, entry ≠ .mapping fields) →
      (window home path index base entry).Agree
        (window home path index base (longForm "panes" entry)) ∧
      (pane home path index entry).Agree (pane home path index (longForm "commands" entry))) ∧
    (∀ value, value ≠ .null → (∀ items, value ≠ .list items) →
      windows home index base value = windows home index base (.list [value]) ∧
      panes home path base value = panes home path base (.list [value])) ∧
    (∀ entries entries', List.Forall₂ (Spelled windowVocabulary "panes") entries entries' →
      windows home index base (.list entries) = windows home index base (.list entries')) ∧
    (∀ entries entries', List.Forall₂ (Spelled paneVocabulary "commands") entries entries' →
      (panes home path base (.list entries)).Agree (panes home path base (.list entries'))) ∧
    ∀ n value rest, Text.IsOverlong n →
      window home path index base (.mapping ((.int n, value) :: rest)) =
        .lift (.error (.fault .unwritable)) ∧
      pane home path index (.mapping ((.int n, value) :: rest)) =
        .lift (.error (.fault .unwritable)) := by
  refine ⟨fun _ short => window_longForm short, fun _ short => pane_longForm short,
    fun _ bare => ⟨window_bare bare, pane_bare bare⟩,
    fun _ some single => ⟨windows_single some single, panes_single some single⟩,
    fun entries entries' spelled => ?windows, fun entries entries' spelled => ?panes,
    fun n value rest long => ⟨?_, ?_⟩⟩
  case windows =>
    cases spelled with
    | nil => rfl
    | cons first rest => exact windowList_spelled (.cons first rest)
  case panes =>
    cases spelled with
    | nil => exact .refl _
    | cons first rest => exact paneList_spelled (.cons first rest)
  · rw [window, entryPairs_overlong windowVocabulary long]
    rfl
  · rw [pane, entryPairs_overlong paneVocabulary long]
    rfl

/-- A name with its panes and a layout. -/
def editorEntry : Tree := .mapping [
  (.text "editor", .list [.text "vim", .mapping [(.int 2, .text "ls")]]),
  (.text "layout", .text "tiled")]

theorem isShort_editorEntry : IsShort windowVocabulary "panes" editorEntry :=
  ⟨by decide, .inr rfl, nofun, nofun, by decide, by decide⟩

theorem shorthand_longForm_editor :
    window "/home/u" "windows[0]" 1 1 editorEntry =
        window "/home/u" "windows[0]" 1 1 (.mapping [
          (.text "name", .text "editor"),
          (.text "panes", .list [.text "vim", .mapping [(.int 2, .text "ls")]]),
          (.text "layout", .text "tiled")]) ∧
      (window "/home/u" "windows[0]" 1 1 editorEntry).result.toOption = some {
        index := 1, name := some "editor", layout := some "tiled"
        panes := [{ index := 1, commands := ["vim"] },
          { index := 2, name := some "2", commands := ["ls"] }] } :=
  ⟨(shorthand_longForm "/home/u" "windows[0]" 1 1).1 editorEntry isShort_editorEntry,
    by decide +kernel⟩

end SessionPlan.Document
