import SessionPlan.Proofs.Document.Frame
import SessionPlan.Proofs.Document.Winner

/-! The fields that an entry mentions, in the order in which they are read. Whatever way a window or
a pane is written, it is laid out as such pairs and is made of the winners among them. -/
namespace SessionPlan.Document

variable {F : Type} {v : Vocabulary F} {content : String}

/-! ### Laying out an entry -/

/-- The pairs of a content that stands alone or after a name. -/
def contentPairs (content : String) : Tree → List Pair
  | .mapping nested => plainPairs nested
  | .null => []
  | value => [⟨.text content, value, true⟩]

def mentions (v : Vocabulary F) (content : String) : Tree → List Pair
  | .mapping [] => []
  | .mapping ((name, value) :: rest) =>
    if (v.field? name).isSome then plainPairs ((name, value) :: rest)
    else namePairs name ++ contentPairs content value ++ plainPairs rest
  | value => contentPairs content value

/-- An entry begins as one can: it is content alone, or its first key names a field or is the
entry's name, one that can be written, with a value that is no flag. -/
def Headed (v : Vocabulary F) : Tree → Prop
  | .mapping [] => False
  | .mapping ((name, value) :: _) =>
    (v.field? name).isSome ∨
      (name = .null ∨ isScalar name = true) ∧ name.isWritable = true ∧ ∀ b, value ≠ .flag b
  | .null | .list _ => True
  | value => isScalar value = true

/-- An entry that is read: it begins as one can, and all that it mentions are fields. -/
structure Readable (v : Vocabulary F) (content : String) (entry : Tree) : Prop where
  headed : Headed v entry
  known : ∀ p ∈ mentions v content entry, (v.field? p.key).isSome

theorem ne_null_of_field {key : Tree} (known : (v.field? key).isSome) : key ≠ .null := by
  rintro rfl
  cases known

theorem named_of_entryName {entity : Entity} {path : String} {name : Tree} {pairs : List Pair}
    (read : entryName entity path name = .ok pairs) :
    (name = .null ∨ isScalar name = true) ∧ name.isWritable = true := by
  unfold entryName at read
  split at read
  · exact ⟨.inl rfl, rfl⟩
  · exact ⟨.inr rfl, rfl⟩
  · split at read
    · rename_i scalar
      obtain ⟨text, written, -⟩ := bind_eq_ok.mp read
      exact ⟨.inr scalar, (Tree.written_eq_ok.mp written).1⟩
    · exact absurd read (reject_ne_ok _ _ _)

theorem entryContent_of_known {value : Tree} (clear : ∀ b, value ≠ .flag b)
    (known : ∀ p ∈ contentPairs content value, (v.field? p.key).isSome) (path : String)
    (name : Tree) : entryContent v content path name value = .ok (contentPairs content value) := by
  unfold entryContent
  split
  · rename_i nested
    have fields : ∀ e ∈ nested, (v.field? e.1).isSome := fun e member =>
      known ⟨e.1, e.2, false⟩ (List.mem_map_of_mem member)
    rw [find?_unknown_eq_none fields]
    rfl
  · exact absurd rfl (clear _)
  · rfl
  · rename_i not_mapping _ not_null
    rw [contentPairs]
    · exact not_mapping
    · exact not_null

theorem content_of_entryContent {path : String} {name value : Tree} {pairs : List Pair}
    (read : entryContent v content path name value = .ok pairs) :
    (∀ b, value ≠ .flag b) ∧ pairs = contentPairs content value := by
  unfold entryContent at read
  split at read
  · split at read
    · exact absurd read (reject_ne_ok _ _ _)
    · cases read
      exact ⟨nofun, rfl⟩
  · exact absurd read (reject_ne_ok _ _ _)
  · cases read
    exact ⟨nofun, rfl⟩
  · rename_i not_mapping not_flag not_null
    cases read
    refine ⟨not_flag, ?_⟩
    rw [contentPairs]
    · exact not_mapping
    · exact not_null

theorem mentions_cons (name value : Tree) (rest : List (Tree × Tree)) :
    mentions v content (.mapping ((name, value) :: rest)) =
      mentions v content (.mapping [(name, value)]) ++ plainPairs rest := by
  rw [mentions, mentions]
  split
  · rfl
  · exact (congrArg (· ++ _) (List.append_nil _)).symm

/-- An entry that begins as one can is laid out if a definition after its name has fields only and
no null comes later. -/
theorem entryPairs_of_headed {name value : Tree} {rest : List (Tree × Tree)}
    (headed : Headed v (.mapping ((name, value) :: rest)))
    (filled : v.field? name = none → ∀ p ∈ contentPairs content value, (v.field? p.key).isSome)
    (clear : ∀ e ∈ rest, e.1 ≠ .null) (path : String) :
    entryPairs v content path ((name, value) :: rest) =
      .ok (mentions v content (.mapping ((name, value) :: rest))) := by
  rw [Headed] at headed
  rw [entryPairs, mentions]
  cases first : v.field? name with
  | some f =>
    have named : (v.keyField? name).isSome = true := by
      rw [← Option.isSome_map, ← Vocabulary.field?, first]
      rfl
    rw [if_pos named]
    rfl
  | none =>
    rw [first] at headed
    obtain ⟨named, writable, unflagged⟩ := headed.resolve_left Bool.false_ne_true
    have nameless : ¬(v.keyField? name).isSome = true := by
      rw [← Option.isSome_map, ← Vocabulary.field?, first]
      exact Bool.false_ne_true
    rw [if_neg nameless, entryName_eq_ok named writable, ok_bind,
      entryContent_of_known unflagged (filled first), ok_bind]
    split
    · rename_i late
      obtain ⟨⟨key, value⟩, member, null⟩ := List.any_eq_true.mp late
      have some := clear _ member
      cases key <;> simp_all
    · rfl

theorem entryPairs_of_readable {entries : List (Tree × Tree)}
    (readable : Readable v content (.mapping entries)) (path : String) :
    entryPairs v content path entries = .ok (mentions v content (.mapping entries)) := by
  obtain ⟨headed, known⟩ := readable
  match entries with
  | [] => exact headed.elim
  | (name, value) :: rest =>
    refine entryPairs_of_headed headed (fun unnamed p member => ?_) (fun e member => ?_) path
    · rw [mentions, unnamed] at known
      exact known p (List.mem_append_left _ (List.mem_append_right _ member))
    · rw [mentions_cons] at known
      exact ne_null_of_field (known ⟨e.1, e.2, false⟩
        (List.mem_append_right _ (List.mem_map_of_mem member)))

theorem readable_of_entryPairs {path : String} {entries : List (Tree × Tree)} {pairs : List Pair}
    (laid : entryPairs v content path entries = .ok pairs)
    (known : ∀ p ∈ pairs, (v.field? p.key).isSome) : Readable v content (.mapping entries) := by
  unfold entryPairs at laid
  split at laid
  · cases laid
  · rename_i name value rest
    split at laid
    · rename_i first
      have named : (v.field? name).isSome := by rwa [Vocabulary.field?, Option.isSome_map]
      cases laid
      refine ⟨.inl named, ?_⟩
      rwa [mentions, if_pos named]
    · rename_i first
      have unnamed : ¬(v.field? name).isSome = true := by rwa [Vocabulary.field?, Option.isSome_map]
      obtain ⟨own, nameRead, laid⟩ := bind_eq_ok.mp laid
      obtain ⟨filled, contentRead, laid⟩ := bind_eq_ok.mp laid
      obtain ⟨named, writable⟩ := named_of_entryName nameRead
      obtain ⟨clear, rfl⟩ := content_of_entryContent contentRead
      rw [entryName_eq_ok named writable] at nameRead
      cases nameRead
      split at laid
      · cases laid
      · cases laid
        refine ⟨.inr ⟨named, writable, clear⟩, ?_⟩
        rwa [mentions, if_neg unnamed]

/-! ### Reading an entry -/

section
variable [DecidableEq F]

/-- The fields of an entry that is a mapping. -/
def entryFields (v : Vocabulary F) (content path : String) (entries : List (Tree × Tree)) :
    Build (F → Option Tree) :=
  liftM (entryPairs v content path entries) >>= readFields v path

theorem entryFields_of_readable (complete : v.Complete) {entries : List (Tree × Tree)}
    (readable : Readable v content (.mapping entries)) (path : String) :
    ∃ notes, entryFields v content path entries =
        ⟨notes, .ok (chosen v (mentions v content (.mapping entries)))⟩ ∧
      notes.Perm (clashes v path (mentions v content (.mapping entries))) := by
  rw [entryFields, entryPairs_of_readable readable, Noted.liftM_ok, Noted.pure_bind]
  exact readFields_of_known complete readable.known path

theorem readable_of_entryFields {path : String} {entries : List (Tree × Tree)}
    {fields : F → Option Tree} (read : (entryFields v content path entries).result = .ok fields) :
    Readable v content (.mapping entries) := by
  obtain ⟨pairs, laid, read⟩ := Noted.result_bind_eq_ok.mp read
  exact readable_of_entryPairs laid (known_of_readFields read)

end

/-! ### Windows and panes -/

/-- An entry that is content alone, or nothing, mentions it once. -/
theorem mentions_of_bare {entry : Tree} (bare : ∀ entries, entry ≠ .mapping entries) :
    (mentions v content entry).map (fun p => (p.key, p.value)) = valueFields content entry := by
  cases entry with
  | mapping entries => exact absurd rfl (bare entries)
  | _ => rfl

theorem namedOnce_of_bare {f : F} {rank : Nat} (named : v.find? content = some (f, rank))
    {entry : Tree} (bare : ∀ entries, entry ≠ .mapping entries) :
    NamedOnce v (valueFields content entry) := by
  cases entry with
  | mapping entries => exact absurd rfl (bare entries)
  | null => exact ⟨nofun, .nil⟩
  | _ => exact namedOnce_single named _

theorem readable_of_bare {f : F} {rank : Nat} (named : v.find? content = some (f, rank))
    {entry : Tree} (headed : Headed v entry) (bare : ∀ entries, entry ≠ .mapping entries) :
    Readable v content entry where
  headed := headed
  known p member := by
    apply (namedOnce_of_bare named bare).known (p.key, p.value)
    rw [← mentions_of_bare bare]
    exact List.mem_map_of_mem member

theorem find?_panes : windowVocabulary.find? "panes" = some (.panes, 0) := by decide
theorem find?_commands : paneVocabulary.find? "commands" = some (.commands, 0) := by decide

variable {home path : String} {index base : Int}

theorem window_mapping_eq (entries : List (Tree × Tree)) :
    window home path index base (.mapping entries) =
      entryFields windowVocabulary "panes" path entries >>=
        windowOfFields home path index base := by
  rw [entryFields, bind_assoc]
  rfl

theorem pane_mapping_eq (entries : List (Tree × Tree)) :
    pane home path index (.mapping entries) =
      entryFields paneVocabulary "commands" path entries >>= fun fields =>
        Noted.lift (paneOfFields home path index fields) := by
  rw [entryFields, bind_assoc]
  rfl

theorem window_of_bare {entry : Tree} (headed : Headed windowVocabulary entry)
    (bare : ∀ entries, entry ≠ .mapping entries) :
    window home path index base entry = windowOfFields home path index base
      (valueIn windowVocabulary (valueFields "panes" entry)) := by
  rw [← window_entryOf (namedOnce_of_bare find?_panes bare)]
  cases entry with
  | mapping entries => exact absurd rfl (bare entries)
  | null => rfl
  | list | int | real | nan | text => exact (window_content _).symm
  | _ => cases headed

theorem pane_of_bare {entry : Tree} (headed : Headed paneVocabulary entry)
    (bare : ∀ entries, entry ≠ .mapping entries) (home path : String) (index : Int) :
    (pane home path index entry).Agree (Noted.lift (paneOfFields home path index
      (valueIn paneVocabulary (valueFields "commands" entry)))) := by
  rw [← pane_entryOf (namedOnce_of_bare find?_commands bare)]
  cases entry with
  | mapping entries => exact absurd rfl (bare entries)
  | null => exact .refl _
  | list | int | real | nan | text => exact pane_longForm (by trivial)
  | _ => cases headed

/-- A window is made of the winners among the fields that its entry mentions. -/
theorem window_of_readable {entry : Tree} (readable : Readable windowVocabulary "panes" entry)
    (home path : String) (index base : Int) :
    (window home path index base entry).result = (windowOfFields home path index base
        (chosen windowVocabulary (mentions windowVocabulary "panes" entry))).result ∧
      (window home path index base entry).notes.Perm
        (clashes windowVocabulary path (mentions windowVocabulary "panes" entry) ++
          (windowOfFields home path index base
            (chosen windowVocabulary (mentions windowVocabulary "panes" entry))).notes) := by
  by_cases mapped : ∃ entries, entry = .mapping entries
  · obtain ⟨entries, rfl⟩ := mapped
    obtain ⟨notes, read, perm⟩ := entryFields_of_readable complete_window readable path
    rw [window_mapping_eq, read]
    exact ⟨rfl, perm.append_right _⟩
  · have bare := not_exists.mp mapped
    obtain ⟨given, silent⟩ := chosen_of_namedOnce complete_window (mentions_of_bare bare)
      (namedOnce_of_bare find?_panes bare)
    rw [window_of_bare readable.headed bare, given, silent]
    exact ⟨rfl, .refl _⟩

/-- So is a pane, though a fault in its commands may be placed differently. -/
theorem pane_of_readable {entry : Tree} (readable : Readable paneVocabulary "commands" entry)
    (home path : String) (index : Int) :
    (pane home path index entry).result.toOption = (paneOfFields home path index
        (chosen paneVocabulary (mentions paneVocabulary "commands" entry))).toOption ∧
      (pane home path index entry).notes.Perm
        (clashes paneVocabulary path (mentions paneVocabulary "commands" entry)) := by
  by_cases mapped : ∃ entries, entry = .mapping entries
  · obtain ⟨entries, rfl⟩ := mapped
    obtain ⟨notes, read, perm⟩ := entryFields_of_readable complete_pane readable path
    rw [pane_mapping_eq, read]
    exact ⟨rfl, (List.Perm.of_eq (List.append_nil notes)).trans perm⟩
  · have bare := not_exists.mp mapped
    obtain ⟨given, silent⟩ := chosen_of_namedOnce complete_pane (mentions_of_bare bare)
      (namedOnce_of_bare find?_commands bare)
    obtain ⟨notes, answer⟩ := pane_of_bare readable.headed bare home path index
    rw [given, silent, notes]
    exact ⟨answer, .nil⟩

theorem readable_of_window {entry : Tree} {w : Window}
    (built : (window home path index base entry).result = .ok w) :
    Readable windowVocabulary "panes" entry := by
  by_cases mapped : ∃ entries, entry = .mapping entries
  · obtain ⟨entries, rfl⟩ := mapped
    rw [window_mapping_eq] at built
    obtain ⟨fields, read, -⟩ := Noted.result_bind_eq_ok.mp built
    exact readable_of_entryFields read
  · have bare := not_exists.mp mapped
    refine readable_of_bare find?_panes ?_ bare
    cases entry with
    | mapping entries => exact absurd rfl (bare entries)
    | null | list => trivial
    | int | real | nan | text => rfl
    | _ => cases built

theorem readable_of_pane {entry : Tree} {p : Pane}
    (built : (pane home path index entry).result = .ok p) :
    Readable paneVocabulary "commands" entry := by
  by_cases mapped : ∃ entries, entry = .mapping entries
  · obtain ⟨entries, rfl⟩ := mapped
    rw [pane_mapping_eq] at built
    obtain ⟨fields, read, -⟩ := Noted.result_bind_eq_ok.mp built
    exact readable_of_entryFields read
  · have bare := not_exists.mp mapped
    refine readable_of_bare find?_commands ?_ bare
    cases entry with
    | mapping entries => exact absurd rfl (bare entries)
    | null | list => trivial
    | int | real | nan | text => rfl
    | _ => cases built

theorem window_eq_ok {entry : Tree} {w : Window} :
    (window home path index base entry).result = .ok w ↔
      Readable windowVocabulary "panes" entry ∧ (windowOfFields home path index base
        (chosen windowVocabulary (mentions windowVocabulary "panes" entry))).result = .ok w := by
  constructor
  · intro built
    have readable := readable_of_window built
    exact ⟨readable, (window_of_readable readable home path index base).1.symm.trans built⟩
  · rintro ⟨readable, built⟩
    exact (window_of_readable readable home path index base).1.trans built

theorem pane_eq_ok {entry : Tree} {p : Pane} :
    (pane home path index entry).result = .ok p ↔
      Readable paneVocabulary "commands" entry ∧ paneOfFields home path index
        (chosen paneVocabulary (mentions paneVocabulary "commands" entry)) = .ok p := by
  constructor
  · intro built
    have readable := readable_of_pane built
    have same := (pane_of_readable readable home path index).1
    rw [built] at same
    exact ⟨readable, eq_ok_of_toOption same.symm⟩
  · rintro ⟨readable, built⟩
    have same := (pane_of_readable readable home path index).1
    rw [built] at same
    exact eq_ok_of_toOption same

/-- The pane entries of a window entry. -/
def paneEntries (entry : Tree) : List Tree :=
  entryList (orNull (chosen windowVocabulary (mentions windowVocabulary "panes" entry)) .panes)

/-! ### Projects -/

/-- The pairs of a document's own fields. -/
def rootPairs : Tree → List Pair
  | .mapping entries => plainPairs entries
  | _ => []

/-- The window entries of a document. -/
def windowEntries (document : Tree) : List Tree :=
  entryList (orNull (chosen projectVocabulary (rootPairs document)) .windows)

/-- A document that is read: a mapping of fields, of which one makes it more than empty. -/
structure ReadableRoot (document : Tree) : Prop where
  mapping : ∃ entries, document = .mapping entries
  known : ∀ p ∈ rootPairs document, (projectVocabulary.field? p.key).isSome
  content :
    (contentFields.any fun f => (chosen projectVocabulary (rootPairs document) f).isSome) = true

theorem build_of_readable {document : Tree} (readable : ReadableRoot document) (home : String)
    (wishes : Wishes) :
    (build home wishes document).result = (projectOfFields home wishes
        (chosen projectVocabulary (rootPairs document))).result ∧
      (build home wishes document).notes.Perm
        (clashes projectVocabulary "" (rootPairs document) ++
          (projectOfFields home wishes (chosen projectVocabulary (rootPairs document))).notes) := by
  obtain ⟨⟨entries, rfl⟩, known, content⟩ := readable
  obtain ⟨notes, read, perm⟩ := readFields_of_known complete_project known ""
  rw [rootPairs] at read perm content ⊢
  rw [build, read, Noted.ok_then, content]
  exact ⟨rfl, perm.append_right _⟩

theorem build_eq_ok {home : String} {wishes : Wishes} {document : Tree} {p : Project} :
    (build home wishes document).result = .ok p ↔ ReadableRoot document ∧
      (projectOfFields home wishes (chosen projectVocabulary (rootPairs document))).result =
        .ok p := by
  constructor
  · intro built
    have readable : ReadableRoot document := by
      unfold build at built
      split at built
      · cases built
      · rename_i entries
        obtain ⟨fields, read, built⟩ := Noted.result_bind_eq_ok.mp built
        have known := known_of_readFields read
        obtain ⟨notes, again, -⟩ := readFields_of_known complete_project known ""
        rw [again] at read
        cases read
        refine ⟨⟨entries, rfl⟩, known, ?_⟩
        by_contra empty
        rw [rootPairs, Bool.not_eq_true] at empty
        rw [empty] at built
        cases built
      · cases built
    exact ⟨readable, (build_of_readable readable home wishes).1.symm.trans built⟩
  · rintro ⟨readable, built⟩
    exact (build_of_readable readable home wishes).1.trans built

end SessionPlan.Document
