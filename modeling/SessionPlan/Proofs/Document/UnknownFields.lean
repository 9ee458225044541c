import SessionPlan.Proofs.Document.Blame
import SessionPlan.Proofs.Document.Revision

/-! No field is ignored in silence. Wherever a document is read as a mapping of fields, a key that
names none of them makes the whole of it unreadable, and the key is told with the place of its
mapping. -/
namespace SessionPlan.Document

/-! ### Places of fields -/

/-- A mapping that is read in some whole: the entity whose fields it holds, where it is said to be,
its entries, how many of them come before any that may be added, and the whole with other entries in
their stead. -/
structure Site where
  entity : Entity
  path : String
  entries : List (Tree × Tree)
  first : Nat
  put : List (Tree × Tree) → Tree

/-- In an entry the fields stand in its own mapping, whose first key may be the entry's name, and in
the definition that comes with that name. -/
inductive EntrySite {F : Type} (v : Vocabulary F) (path : String) : Tree → Site → Prop
  | own (entries : List (Tree × Tree)) :
    EntrySite v path (.mapping entries) ⟨v.entity, path, entries, 1, .mapping⟩
  | definition {name : Tree} (nested rest : List (Tree × Tree)) (unnamed : v.field? name = none) :
    EntrySite v path (.mapping ((name, .mapping nested) :: rest))
      ⟨v.entity, path, nested, 0, fun entries => .mapping ((name, .mapping entries) :: rest)⟩

/-- An entry in the stead of the one at its place in a list, or of a single one. -/
def setEntry (place : Nat) (entry : Tree) : Tree → Tree
  | .list items => .list (items.set place entry)
  | _ => entry

/-- A window with another entry for one of its panes. -/
def withPane (window : Tree) (place : Nat) (entry : Tree) : Tree :=
  reviseEntry windowVocabulary "panes" .panes (setEntry place entry) window

inductive WindowSite (path : String) (entry : Tree) : Site → Prop
  | own {site : Site} (here : EntrySite windowVocabulary path entry site) :
    WindowSite path entry site
  | inPane {j : Nat} {e : Tree} {site : Site} (there : (paneEntries entry)[j]? = some e)
    (inside : EntrySite paneVocabulary (itemPath (fieldPath path "panes") j) e site) :
    WindowSite path entry { site with put := fun entries => withPane entry j (site.put entries) }

/-- A document with another entry for one of its windows. -/
def withWindow (document : Tree) (place : Nat) (entry : Tree) : Tree :=
  match document with
  | .mapping entries => .mapping ((reviseWinner projectVocabulary .windows (setEntry place entry)
      (plainPairs entries)).entries 0 entries)
  | other => other

inductive DocumentSite : Tree → Site → Prop
  | own (entries : List (Tree × Tree)) :
    DocumentSite (.mapping entries) ⟨.project, "", entries, 0, .mapping⟩
  | inWindow {document : Tree} {i : Nat} {e : Tree} {site : Site}
    (there : (windowEntries document)[i]? = some e)
    (inside : WindowSite (itemPath "windows" i) e site) :
    DocumentSite document
      { site with put := fun entries => withWindow document i (site.put entries) }

/-! ### Entries -/

/-- A build that is rejected for an unknown field in the mapping at `path`. -/
def RejectsField (path key : String) (x : Build α) : Prop :=
  ∃ cause : Cause, x.result = .error (.problem ⟨cause, path⟩) ∧ cause.isShape = false ∧
    cause.context = [("field", .text key)]

theorem RejectsField.bind {path key : String} {x : Build α} (rejects : RejectsField path key x)
    (f : α → Build β) : RejectsField path key (x >>= f) := by
  obtain ⟨cause, failed, kind⟩ := rejects
  exact ⟨cause, Noted.bind_of_error failed f, kind⟩

theorem RejectsField.congr {path key : String} {x y : Build α} (rejects : RejectsField path key x)
    (same : y.result = x.result) : RejectsField path key y := by
  obtain ⟨cause, failed, kind⟩ := rejects
  exact ⟨cause, same.trans failed, kind⟩

/-- The names that the fields of an entity may have. -/
def Vocabulary.accepted {F : Type} (v : Vocabulary F) : List String := v.names.flatMap Prod.snd

def fieldNames : Entity → List String
  | .project => projectVocabulary.accepted
  | .window => windowVocabulary.accepted
  | .pane => paneVocabulary.accepted

section
variable {F : Type} {v : Vocabulary F} {content key path : String} {n : Nat}

theorem find?_eq_none_of_not_accepted (unknown : key ∉ v.accepted) : v.find? key = none := by
  cases found : v.find? key with
  | none => rfl
  | some named =>
    obtain ⟨names, listed, member⟩ := mem_names_of_find? found
    exact absurd (List.mem_flatMap.mpr ⟨_, listed, member⟩) unknown

variable [DecidableEq F]

theorem readFields_rejects {before after : List Pair} {value : Tree}
    (known : ∀ p ∈ before, (v.field? p.key).isSome) (unknown : key ∉ v.accepted) :
    RejectsField path key (readFields v path (before ++ ⟨.text key, value, false⟩ :: after)) := by
  refine ⟨.fieldUnknown v.entity (.text key), ?_, rfl, rfl⟩
  have here : Pair.occurrence v path ⟨.text key, value, false⟩ =
      .error (.problem ⟨.fieldUnknown v.entity (.text key), path⟩) := by
    rw [Pair.occurrence, Vocabulary.keyField?, find?_eq_none_of_not_accepted unknown]
    rfl
  rw [readFields, List.mapM_append, mapM_occurrence_eq_ok known, List.mapM_cons, here]
  rfl

/-- A key that is added to an entry's own mapping is found to be unknown when its fields are
read. -/
theorem entryFields_rejects {entries : List (Tree × Tree)} {value : Tree}
    (readable : Readable v content (.mapping entries)) (first : 1 ≤ n) (inside : n ≤ entries.length)
    (unknown : key ∉ v.accepted) :
    RejectsField path key
      (entryFields v content path (entries.insertIdx n (.text key, value))) := by
  obtain ⟨m, rfl⟩ := Nat.exists_eq_add_of_le' first
  cases entries with
  | nil => cases inside
  | cons head rest =>
    obtain ⟨name, x⟩ := head
    have known := readable.known
    rw [mentions_cons] at known
    have fields : ∀ e ∈ rest, (v.field? e.1).isSome := fun e member =>
      known ⟨e.1, e.2, false⟩ (List.mem_append_right _ (List.mem_map_of_mem member))
    rw [List.insertIdx_succ_cons, insertIdx_eq_append (Nat.le_of_succ_le_succ inside)]
    have headed : Headed v (.mapping
        ((name, x) :: (rest.take m ++ (.text key, value) :: rest.drop m))) := readable.headed
    have filled (unnamed : v.field? name = none) :
        ∀ p ∈ contentPairs content x, (v.field? p.key).isSome := by
      intro p member
      rw [mentions, unnamed] at known
      exact known p (List.mem_append_left _ (List.mem_append_left _
        (List.mem_append_right (namePairs name) member)))
    have clear : ∀ e ∈ rest.take m ++ (.text key, value) :: rest.drop m, e.1 ≠ .null := by
      intro e member
      rcases List.mem_append.mp member with early | late
      · exact ne_null_of_field (fields e (List.mem_of_mem_take early))
      · rcases List.mem_cons.mp late with rfl | later
        · intro null
          cases null
        · exact ne_null_of_field (fields e (List.mem_of_mem_drop later))
    rw [entryFields, entryPairs_of_headed headed filled clear, Noted.liftM_ok, Noted.pure_bind,
      mentions_cons, plainPairs, List.map_append, List.map_cons, ← List.append_assoc]
    refine readFields_rejects (fun p member => ?_) unknown
    rcases List.mem_append.mp member with front | early
    · exact known p (List.mem_append_left _ front)
    · obtain ⟨e, taken, rfl⟩ := List.mem_map.mp early
      exact fields e (List.mem_of_mem_take taken)

omit [DecidableEq F] in
/-- A key that is added to a definition is the first that is unknown in it. -/
theorem find?_insertIdx_unknown {nested : List (Tree × Tree)} {value : Tree}
    (fields : ∀ e ∈ nested, (v.field? e.1).isSome) (inside : n ≤ nested.length)
    (unknown : key ∉ v.accepted) :
    ((nested.insertIdx n (.text key, value)).find? fun (k, _) => (v.keyField? k).isNone) =
      some (.text key, value) := by
  have found : (v.keyField? (.text key)).isNone = true := by
    rw [Vocabulary.keyField?, find?_eq_none_of_not_accepted unknown]
    rfl
  rw [insertIdx_eq_append inside, List.find?_append,
    find?_unknown_eq_none fun e member => fields e (List.mem_of_mem_take member), Option.none_or]
  exact List.find?_cons_of_pos found

/-- A key that is added to the definition after an entry's name is found to be unknown when the
entry is laid out. -/
theorem entryFields_rejects_nested {name : Tree} {nested rest : List (Tree × Tree)} {value : Tree}
    (unnamed : v.field? name = none)
    (readable : Readable v content (.mapping ((name, .mapping nested) :: rest)))
    (inside : n ≤ nested.length) (unknown : key ∉ v.accepted) :
    RejectsField path key (entryFields v content path
      ((name, .mapping (nested.insertIdx n (.text key, value))) :: rest)) := by
  refine ⟨.nestedFieldUnknown v.entity (.text key) name, ?_, rfl, rfl⟩
  obtain ⟨headed, known⟩ := readable
  rw [Headed, unnamed] at headed
  rw [mentions, unnamed] at known
  obtain ⟨named, writable, -⟩ := headed.resolve_left Bool.false_ne_true
  have fields : ∀ e ∈ nested, (v.field? e.1).isSome := fun e member =>
    known ⟨e.1, e.2, false⟩ (List.mem_append_left _ (List.mem_append_right _
      (List.mem_map_of_mem member)))
  have nameless : ¬(v.keyField? name).isSome = true := by
    rw [← Option.isSome_map, ← Vocabulary.field?, unnamed]
    exact Bool.false_ne_true
  have told : ∀ n ∈ (Cause.nestedFieldUnknown v.entity (.text key) name).integers,
      Text.isWritable n = true := Tree.isWritable_iff.mp writable
  rw [entryFields, entryPairs, if_neg nameless, entryName_eq_ok named writable, ok_bind,
    entryContent, find?_insertIdx_unknown fields inside unknown]
  dsimp only
  rw [reject_eq told]
  rfl

/-- Wherever it is added to an entry. -/
theorem EntrySite.rejects {entry : Tree} {site : Site}
    (there : EntrySite v path entry site) (readable : Readable v content entry)
    (first : site.first ≤ n) (inside : n ≤ site.entries.length) (unknown : key ∉ v.accepted)
    (value : Tree) :
    ∃ entries, site.put (site.entries.insertIdx n (.text key, value)) = .mapping entries ∧
      RejectsField site.path key (entryFields v content path entries) := by
  cases there with
  | own entries => exact ⟨_, rfl, entryFields_rejects readable first inside unknown⟩
  | definition nested rest unnamed =>
    exact ⟨_, rfl, entryFields_rejects_nested unnamed readable inside unknown⟩

end

/-! ### Panes and windows -/

section
variable {home path key : String} {index base : Int} {n : Nat}

theorem entryList_setEntry {value entry e : Tree} {j : Nat} (there : (entryList value)[j]? = some e)
    (single : (∀ items, e ≠ .list items) → ∀ items, entry ≠ .list items) :
    entryList (setEntry j entry value) = (entryList value).set j entry := by
  by_cases several : ∃ items, value = .list items
  · obtain ⟨items, rfl⟩ := several
    rfl
  · have alone := not_exists.mp several
    rw [entryList_single alone] at there ⊢
    obtain rfl : e = value := List.mem_singleton.mp (List.mem_of_getElem? there)
    obtain ⟨inside, -⟩ := List.getElem?_eq_some_iff.mp there
    obtain rfl : j = 0 := Nat.lt_one_iff.mp inside
    rw [setEntry, entryList_single (single alone)]
    · rfl
    · exact alone

theorem setEntry_self {value e : Tree} {j : Nat} (there : (entryList value)[j]? = some e) :
    setEntry j e value = value := by
  by_cases several : ∃ items, value = .list items
  · obtain ⟨items, rfl⟩ := several
    obtain ⟨inside, rfl⟩ := List.getElem?_eq_some_iff.mp there
    exact congrArg Tree.list (List.set_getElem_self inside)
  · have alone := not_exists.mp several
    rw [entryList_single alone] at there
    rw [setEntry, List.mem_singleton.mp (List.mem_of_getElem? there)]
    exact alone

theorem setEntry_chosen {F : Type} {fields : F → Option Tree} {f : F} {e : Tree} {j : Nat}
    (there : (entryList (orNull fields f))[j]? = some e) :
    ∀ x, fields f = some x → setEntry j e x = x := by
  intro x given
  rw [orNull, given] at there
  exact setEntry_self there

/-- One entry that is rejected makes the whole list rejected. -/
theorem entries_reject {α : Type} {read : Tree → Build (List α)} {one : Tree × Nat → Build α}
    (reads : ∀ value, entryList value ≠ [] → read value = (entryList value).zipIdx.mapM one)
    {value entry e : Tree} {list : List α} {j : Nat} {place : String}
    (several : entryList value ≠ []) (built : (read value).result = .ok list)
    (there : (entryList value)[j]? = some e)
    (single : (∀ items, e ≠ .list items) → ∀ items, entry ≠ .list items)
    (rejects : RejectsField place key (one (entry, j))) :
    RejectsField place key (read (setEntry j entry value)) := by
  have entries := entryList_setEntry there single
  have still : entryList (setEntry j entry value) ≠ [] := by simpa [entries] using several
  obtain ⟨cause, failed, kind⟩ := rejects
  rw [reads value several] at built
  refine ⟨cause, ?_, kind⟩
  rw [reads _ still, entries]
  exact Noted.mapM_set_result_eq_error built (List.getElem?_eq_some_iff.mp there).1 failed

theorem panes_reject {value entry e : Tree} {list : List Pane} {j : Nat} {place : String}
    (built : (panes home path base value).result = .ok list)
    (there : (entryList value)[j]? = some e)
    (single : (∀ items, e ≠ .list items) → ∀ items, entry ≠ .list items)
    (rejects : RejectsField place key (pane home (itemPath path j) (base + j) entry)) :
    RejectsField place key (panes home path base (setEntry j entry value)) :=
  entries_reject (fun _ => panes_eq_mapM) (panes_eq_ok.mp built).1 built there single rejects

theorem windows_reject {windowBase paneBase : Int} {value entry e : Tree} {list : List Window}
    {i : Nat} {place : String}
    (built : (windows home windowBase paneBase value).result = .ok list)
    (there : (entryList value)[i]? = some e)
    (single : (∀ items, e ≠ .list items) → ∀ items, entry ≠ .list items)
    (rejects : RejectsField place key
      (window home (itemPath "windows" i) (windowBase + i) paneBase entry)) :
    RejectsField place key (windows home windowBase paneBase (setEntry i entry value)) :=
  entries_reject (fun _ => windows_eq_mapM) (windows_eq_ok.mp built).1 built there single rejects

/-- An entry that is a mapping stands in a list or alone, so the like of what holds it comes in the
stead of that. -/
theorem kindred_setEntry {value : Tree} {entries : List (Tree × Tree)} {j : Nat} (entry : Tree)
    (there : (entryList value)[j]? = some (.mapping entries))
    (bare : ∀ entries, value ≠ .mapping entries) : Kindred value (setEntry j entry value) := by
  by_cases several : ∃ items, value = .list items
  · obtain ⟨items, rfl⟩ := several
    exact .inr ⟨items, _, rfl, rfl⟩
  · rw [entryList_single (not_exists.mp several)] at there
    exact absurd (List.mem_singleton.mp (List.mem_of_getElem? there)).symm (bare entries)

theorem EntrySite.mapping {F : Type} {v : Vocabulary F} {entry : Tree} {site : Site}
    (there : EntrySite v path entry site) : ∃ entries, entry = .mapping entries := by
  cases there with
  | own entries => exact ⟨entries, rfl⟩
  | definition nested rest _ => exact ⟨_, rfl⟩

theorem orNull_map {F : Type} {fields fields' : F → Option Tree} {f : F} {revise : Tree → Tree}
    (given : (fields f).isSome) (value : fields' f = (fields f).map revise) :
    orNull fields' f = revise (orNull fields f) := by
  obtain ⟨x, found⟩ := Option.isSome_iff_exists.mp given
  rw [orNull, orNull, value, found]
  rfl

/-- What stands among the entries of a field was given as its value, if it is not null. -/
theorem isSome_of_entry {F : Type} {fields : F → Option Tree} {f : F} {j : Nat} {e : Tree}
    (there : (entryList (orNull fields f))[j]? = some e) (some : e ≠ .null) :
    (fields f).isSome := by
  cases absent : fields f with
  | some x => rfl
  | none =>
    rw [orNull, absent] at there
    exact absurd (List.mem_singleton.mp (List.mem_of_getElem? there)) some

/-- There is no place for a field in an entry that is nothing. -/
theorem WindowSite.not_null {entry : Tree} {site : Site} (there : WindowSite path entry site) :
    entry ≠ .null := by
  rintro rfl
  cases there with
  | own here => cases here
  | inPane there inside =>
    obtain ⟨entries, rfl⟩ := inside.mapping
    exact absurd (isSome_of_entry there nofun) (by decide)

theorem pane_rejects {entry : Tree} {p : Pane} {site : Site}
    (there : EntrySite paneVocabulary path entry site)
    (built : (pane home path index entry).result = .ok p) (first : site.first ≤ n)
    (inside : n ≤ site.entries.length) (unknown : key ∉ paneVocabulary.accepted) (value : Tree) :
    ∃ entries, site.put (site.entries.insertIdx n (.text key, value)) = .mapping entries ∧
      RejectsField site.path key (pane home path index (.mapping entries)) := by
  obtain ⟨entries, put, rejects⟩ :=
    there.rejects (pane_eq_ok.mp built).1 first inside unknown value
  exact ⟨entries, put, by rw [pane_mapping_eq]; exact rejects.bind _⟩

theorem windowOfFields_rejects {fields fields' : WindowField → Option Tree} {w : Window} {j : Nat}
    {e entry : Tree} {place : String}
    (built : (windowOfFields home path index base fields).result = .ok w)
    (there : (entryList (orNull fields .panes))[j]? = some e)
    (same : ∀ f, f ≠ .panes → fields' f = fields f)
    (revised : orNull fields' .panes = setEntry j entry (orNull fields .panes))
    (single : (∀ items, e ≠ .list items) → ∀ items, entry ≠ .list items)
    (rejects : RejectsField place key
      (pane home (itemPath (fieldPath path "panes") j) (base + j) entry)) :
    RejectsField place key (windowOfFields home path index base fields') := by
  obtain ⟨frame, list, framed, panesBuilt, -⟩ := windowOfFields_eq_ok.mp built
  have still : windowFrame home path index fields' = .ok frame :=
    (windowFrame_congr same).trans framed
  rw [windowOfFields_of_frame still, revised]
  exact (panes_reject panesBuilt there single rejects).bind _

theorem window_rejects {entry : Tree} {w : Window} {site : Site}
    (there : WindowSite path entry site)
    (built : (window home path index base entry).result = .ok w) (first : site.first ≤ n)
    (inside : n ≤ site.entries.length) (unknown : key ∉ fieldNames site.entity) (value : Tree) :
    ((∀ items, entry ≠ .list items) →
        ∀ items, site.put (site.entries.insertIdx n (.text key, value)) ≠ .list items) ∧
      RejectsField site.path key (window home path index base
        (site.put (site.entries.insertIdx n (.text key, value)))) := by
  obtain ⟨readable, given⟩ := window_eq_ok.mp built
  cases there with
  | own here =>
    have own : site.entity = .window := by cases here <;> rfl
    rw [own] at unknown
    obtain ⟨entries, put, rejects⟩ := here.rejects readable first inside unknown value
    rw [put]
    refine ⟨fun _ items list => ?_, ?_⟩
    · cases list
    · rw [window_mapping_eq]
      exact rejects.bind _
  | @inPane j e site there within =>
    have own : site.entity = .pane := by cases within <;> rfl
    rw [own] at unknown
    obtain ⟨_, list, -, panesBuilt, -⟩ := windowOfFields_eq_ok.mp given
    obtain ⟨p, paneBuilt⟩ := exists_of_forall₂ (panes_eq_ok.mp panesBuilt).2 (e, j)
      (List.mk_mem_zipIdx_iff_getElem?.mpr there)
    obtain ⟨entries, put, rejects⟩ := pane_rejects within paneBuilt first inside unknown value
    obtain ⟨shape, rfl⟩ := within.mapping
    have full : Tree.mapping shape ≠ .null := by
      intro null
      cases null
    have single : ∀ items, Tree.mapping entries ≠ .list items := by
      intro items list
      cases list
    have kindred : ∀ x, chosen windowVocabulary (mentions windowVocabulary "panes" entry) .panes =
        some x → (∀ entries, x ≠ .mapping entries) →
        Kindred x (setEntry j (.mapping entries) x) := by
      intro x found bare
      rw [paneEntries, orNull, found] at there
      exact kindred_setEntry _ there bare
    -- with the pane's new entry the window is still read, with its other fields as they were
    obtain ⟨still, values⟩ := reviseEntry_read short_window kindred readable
    dsimp only
    rw [put]
    refine ⟨Change.entry_not_list (faithful_reviseWinner short_window kindred), ?_⟩
    refine RejectsField.congr ?_ (window_of_readable still home path index base).1
    exact windowOfFields_rejects given there (fun f other => (values f).trans (if_neg other))
      (orNull_map (isSome_of_entry there full) ((values .panes).trans (if_pos rfl)))
      (fun _ => single) rejects

/-! ### Documents -/

theorem withWindow_read {document : Tree} (readable : ReadableRoot document) (i : Nat)
    (entry : Tree) :
    ReadableRoot (withWindow document i entry) ∧
      ∀ f, chosen projectVocabulary (rootPairs (withWindow document i entry)) f =
        if f = .windows then
          (chosen projectVocabulary (rootPairs document) .windows).map (setEntry i entry)
        else chosen projectVocabulary (rootPairs document) f := by
  obtain ⟨entries, rfl⟩ := readable.mapping
  have keeps : (reviseWinner projectVocabulary .windows (setEntry i entry)
      (plainPairs entries)).KeepsFields projectVocabulary := reviseWinner_keeps
  have values (f : ProjectField) : chosen projectVocabulary ((reviseWinner projectVocabulary
      .windows (setEntry i entry) (plainPairs entries)).pairs 0 (plainPairs entries)) f = _ :=
    chosen_reviseWinner complete_project.listed f
  refine ⟨keeps.readableRoot readable fun f => ?_, fun f => ?_⟩
  · rw [rootPairs, values]
    split
    · rename_i own
      rw [Option.isSome_map, own]
    · rfl
  · rw [withWindow, keeps.rootPairs_eq readable]
    exact values f

/-! The entries of a site are those that its document has there. -/

theorem EntrySite.put_entries {F : Type} {v : Vocabulary F} {entry : Tree} {site : Site}
    (there : EntrySite v path entry site) : site.put site.entries = entry := by
  cases there <;> rfl

theorem WindowSite.put_entries {entry : Tree} {site : Site} (there : WindowSite path entry site) :
    site.put site.entries = entry := by
  cases there with
  | own here => exact here.put_entries
  | inPane there inside =>
    dsimp only
    rw [inside.put_entries]
    exact (leaves_reviseWinner (setEntry_chosen there)).entry_eq

theorem DocumentSite.put_entries {document : Tree} {site : Site}
    (there : DocumentSite document site) : site.put site.entries = document := by
  cases there with
  | own entries => rfl
  | inWindow there inside =>
    dsimp only
    rw [inside.put_entries]
    cases document with
    | mapping entries =>
      exact congrArg Tree.mapping (leaves_reviseWinner (setEntry_chosen there)).entries_eq
    | _ => rfl

theorem document_rejects {wishes : Wishes} {document : Tree} {p : Project} {site : Site}
    (there : DocumentSite document site) (built : (build home wishes document).result = .ok p)
    (first : site.first ≤ n) (inside : n ≤ site.entries.length)
    (unknown : key ∉ fieldNames site.entity) (value : Tree) :
    RejectsField site.path key (build home wishes
      (site.put (site.entries.insertIdx n (.text key, value)))) := by
  obtain ⟨readable, given⟩ := build_eq_ok.mp built
  cases there with
  | own entries =>
    have known := readable.known
    rw [rootPairs] at known
    dsimp only at inside ⊢
    rw [insertIdx_eq_append inside, build, plainPairs, List.map_append, List.map_cons]
    refine (readFields_rejects (fun p member => ?_) unknown).bind _
    refine known p ?_
    rw [plainPairs]
    exact List.mem_of_mem_take (by rwa [← List.map_take])
  | @inWindow _ i e site there within =>
    obtain ⟨frame, list, framed, windowsBuilt, -⟩ := projectOfFields_eq_ok.mp given
    obtain ⟨w, windowBuilt⟩ := exists_of_forall₂ (windows_eq_ok.mp windowsBuilt).2 (e, i)
      (List.mk_mem_zipIdx_iff_getElem?.mpr there)
    obtain ⟨single, rejects⟩ := window_rejects within windowBuilt first inside unknown value
    obtain ⟨still, values⟩ :=
      withWindow_read readable i (site.put (site.entries.insertIdx n (.text key, value)))
    -- nothing is rejected before the windows, nor by the windows before this one
    have same : projectFrame home wishes (chosen projectVocabulary (rootPairs (withWindow document i
        (site.put (site.entries.insertIdx n (.text key, value)))))) = .ok frame :=
      (projectFrame_congr fun f other => (values f).trans (if_neg other)).trans framed
    refine RejectsField.congr ?_ (build_of_readable still home wishes).1
    rw [projectOfFields_of_frame same,
      orNull_map (isSome_of_entry there within.not_null)
        ((values .windows).trans (if_pos rfl))]
    exact (windows_reject windowsBuilt there single rejects).bind _

/-- A key that names no field of its entity is never passed over. Wherever it is added to a document
that is built, be it to the document itself, to the entry of one of its windows or panes, or to the
definition that comes with an entry's name, the document is rejected for this key, with the place of
the entity. -/
theorem build_unknown_field {wishes : Wishes} {document : Tree} {p : Project} {site : Site}
    (there : DocumentSite document site) (built : (build home wishes document).result = .ok p)
    (first : site.first ≤ n) (inside : n ≤ site.entries.length)
    (unknown : key ∉ fieldNames site.entity) (value : Tree) :
    site.put site.entries = document ∧ RejectsField site.path key
      (build home wishes (site.put (site.entries.insertIdx n (.text key, value)))) :=
  ⟨there.put_entries, document_rejects there built first inside unknown value⟩

/-- A document with one pane, whose definition comes with its name. -/
def paneDocument (definition : List (Tree × Tree)) : Tree := .mapping [(.text "windows", .mapping [
  (.text "editor", .mapping [(.text "panes", .list [.mapping [
    (.text "log", .mapping definition)]])])])]

def logged : List (Tree × Tree) := [(.text "commands", .text "tail")]

def loggedEntry : Tree := .mapping [(.text "log", .mapping logged)]

def loggedWindow : Tree :=
  .mapping [(.text "editor", .mapping [(.text "panes", .list [loggedEntry])])]

def loggedPane : Pane := { index := 1, name := some "log", commands := ["tail"] }

def editorWindow : Window := { index := 1, name := some "editor", panes := [loggedPane] }

theorem build_paneDocument :
    (build "/home/ann" {} (paneDocument logged)).result = .ok { windows := [editorWindow] } := by
  have pane : (pane "/home/ann" "windows[0].panes[0]" 1 loggedEntry).result = .ok loggedPane :=
    pane_eq_ok.mpr ⟨⟨.inr ⟨.inr rfl, rfl, nofun⟩, by decide⟩, eq_ok_of_toOption (by decide +kernel)⟩
  have window : (window "/home/ann" "windows[0]" 1 1 loggedWindow).result =
      .ok editorWindow := by
    refine window_eq_ok.mpr ⟨⟨.inr ⟨.inr rfl, rfl, nofun⟩, by decide⟩, windowOfFields_eq_ok.mpr
      ⟨{ editorWindow with panes := [] }, [loggedPane], eq_ok_of_toOption (by decide +kernel),
        ?_, rfl⟩⟩
    exact panes_eq_ok.mpr ⟨nofun, .cons pane .nil⟩
  refine build_eq_ok.mpr ⟨⟨⟨_, rfl⟩, by decide, by decide⟩, projectOfFields_eq_ok.mpr
    ⟨{ windows := [] }, [editorWindow], eq_ok_of_toOption (by decide +kernel), ?_, rfl⟩⟩
  exact windows_eq_ok.mpr ⟨nofun, .cons window .nil⟩

theorem build_unknown_field_nested :
    "color" ∉ fieldNames .pane ∧
      (build "/home/ann" {} (paneDocument logged)).result = .ok { windows := [editorWindow] } ∧
      RejectsField "windows[0].panes[0]" "color"
        (build "/home/ann" {} (paneDocument (logged ++ [(.text "color", .flag true)]))) := by
  have unknown : "color" ∉ fieldNames .pane := by decide
  have there : DocumentSite (paneDocument logged) _ := .inWindow (i := 0) (e := loggedWindow) rfl
    (.inPane (j := 0) (e := loggedEntry) rfl (.definition logged [] rfl))
  have rejects := (build_unknown_field (n := 1) there build_paneDocument (Nat.zero_le 1) le_rfl
    unknown (.flag true)).2
  exact ⟨unknown, build_paneDocument, rejects⟩

end

end SessionPlan.Document
