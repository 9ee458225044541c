import SessionPlan.Proofs.Document.Change

/-! Which of several names of a field is heard, at every level of a document. What loses has no part
in the project: it is the same without the losers, and with each winner under the first name of its
field. All that is left of a loser is a note, if its value was another one. -/
namespace SessionPlan.Document

/-! ### Winners only -/

section
variable {F : Type} [DecidableEq F] {v : Vocabulary F} {content : String}
variable {inner : F → Tree → Tree} {pairs : List Pair}

/-- Only winners stay, each under the first name of its field. What is done to their values is said
by `inner`. -/
def keepWinners (v : Vocabulary F) (inner : F → Tree → Tree) (pairs : List Pair) : Change :=
  fun m p => (v.field? p.key).bind fun f =>
    if winner? v pairs f = some m then
      some ⟨.text (v.canonical f), inner f p.value, p.leading⟩
    else none

theorem keepWinners_eq_some {m : Nat} {p q : Pair} :
    keepWinners v inner pairs m p = some q ↔ ∃ f, v.field? p.key = some f ∧
      winner? v pairs f = some m ∧ q = ⟨.text (v.canonical f), inner f p.value, p.leading⟩ := by
  rw [keepWinners, Option.bind_eq_some_iff]
  refine exists_congr fun f => and_congr_right fun _ => ?_
  split
  · rename_i won
    simp [won, eq_comm]
  · rename_i lost
    simp [lost]

/-- A winner has a value of its own field. -/
theorem mem_keepWinners (coherent : Coherent v) {q : Pair} {f : F}
    (named : v.field? q.key = some f) :
    q ∈ (keepWinners v inner pairs).pairs 0 pairs ↔ ∃ m p, winner? v pairs f = some m ∧
      pairs[m]? = some p ∧ v.field? p.key = some f ∧
      q = ⟨.text (v.canonical f), inner f p.value, p.leading⟩ := by
  rw [Change.pairs, List.mem_filterMap]
  constructor
  · rintro ⟨⟨p, m⟩, inside, became⟩
    obtain ⟨g, own, won, rfl⟩ := keepWinners_eq_some.mp became
    rw [field?_canonical coherent] at named
    cases named
    exact ⟨m, p, won, List.mk_mem_zipIdx_iff_getElem?.mp inside, own, rfl⟩
  · rintro ⟨m, p, won, here, own, rfl⟩
    exact ⟨(p, m), List.mk_mem_zipIdx_iff_getElem?.mpr here,
      keepWinners_eq_some.mpr ⟨f, own, won, rfl⟩⟩

theorem namedOnce_keepWinners (coherent : Coherent v) (inner : F → Tree → Tree)
    (pairs : List Pair) :
    NamedOnce v (((keepWinners v inner pairs).pairs 0 pairs).map fun p => (p.key, p.value)) := by
  constructor
  · intro entry member
    obtain ⟨q, kept, rfl⟩ := List.mem_map.mp member
    obtain ⟨⟨p, m⟩, -, became⟩ := List.mem_filterMap.mp kept
    obtain ⟨f, -, -, rfl⟩ := keepWinners_eq_some.mp became
    rw [field?_canonical coherent]
    rfl
  · rw [List.map_map, List.nodup_iff_pairwise_ne, List.pairwise_map, Change.pairs,
      List.pairwise_filterMap]
    have apart : (pairs.zipIdx 0).Pairwise fun a b => a.2 < b.2 := by
      rw [← List.pairwise_map, List.zipIdx_map_snd]
      exact List.pairwise_lt_range' 1
    refine apart.imp fun {a b} before q first q' second same => ?_
    obtain ⟨f, -, won, rfl⟩ := keepWinners_eq_some.mp first
    obtain ⟨g, -, won', rfl⟩ := keepWinners_eq_some.mp second
    dsimp only [Function.comp_apply] at same
    rw [field?_canonical coherent, field?_canonical coherent] at same
    cases same
    rw [won] at won'
    exact Nat.ne_of_lt before (Option.some.inj won')

theorem valueIn_of_mem {entries : List (Tree × Tree)} (once : NamedOnce v entries)
    {e : Tree × Tree} (member : e ∈ entries) {f : F} (named : v.field? e.1 = some f) :
    valueIn v entries f = some e.2 := by
  have own : e ∈ entries.filter fun entry => v.field? entry.1 = some f :=
    List.mem_filter.mpr ⟨member, decide_eq_true named⟩
  rw [filter_eq_toList_find? once.distinct, Option.mem_toList] at own
  rw [valueIn, Option.mem_def.mp own]
  rfl

theorem valueIn_eq_none {entries : List (Tree × Tree)} {f : F}
    (absent : ∀ e ∈ entries, v.field? e.1 ≠ some f) : valueIn v entries f = none := by
  rw [valueIn, List.find?_eq_none.mpr fun e member => by simpa using absent e member]
  rfl

/-- The fields have the values that they had, and nothing clashes any more. -/
theorem chosen_keepWinners (complete : v.Complete) (coherent : Coherent v)
    (inner : F → Tree → Tree) (pairs : List Pair) :
    chosen v ((keepWinners v inner pairs).pairs 0 pairs) =
        (fun f => (chosen v pairs f).map (inner f)) ∧
      ∀ path, clashes v path ((keepWinners v inner pairs).pairs 0 pairs) = [] := by
  obtain ⟨given, silent⟩ := chosen_of_namedOnce complete rfl
    (namedOnce_keepWinners coherent inner pairs)
  refine ⟨?_, silent⟩
  rw [given]
  funext f
  rw [chosen]
  cases won : winner? v pairs f with
  | none =>
    refine valueIn_eq_none (List.forall_mem_map.mpr fun q member named => ?_)
    obtain ⟨m, p, won', -⟩ := (mem_keepWinners coherent named).mp member
    rw [won] at won'
    cases won'
  | some m =>
    obtain ⟨p, here, own⟩ := winner?_eq_some complete.listed won
    have named := field?_canonical coherent f
    have member : ⟨.text (v.canonical f), inner f p.value, p.leading⟩ ∈
        (keepWinners v inner pairs).pairs 0 pairs :=
      (mem_keepWinners coherent named).mpr ⟨m, p, won, here, own, rfl⟩
    rw [valueIn_of_mem (namedOnce_keepWinners coherent ..) (List.mem_map_of_mem member) named,
      Option.bind_some, here]
    rfl

theorem keepWinners_keeps (coherent : Coherent v) :
    (keepWinners v inner pairs).KeepsFields v where
  known m p q became _ := by
    obtain ⟨f, -, -, rfl⟩ := keepWinners_eq_some.mp became
    exact ⟨by rw [field?_canonical coherent]; rfl, rfl⟩

theorem faithful_keepWinners {nameField contentField : F}
    (short : Shorthand v content nameField contentField) (keepsName : ∀ x, inner nameField x = x)
    (kindred : ∀ x, (∀ entries, x ≠ .mapping entries) → Kindred x (inner contentField x)) :
    (keepWinners v inner pairs).Faithful v content pairs where
  toKeepsFields := keepWinners_keeps short.coherent
  name x after whole := by
    refine keepWinners_eq_some.mpr ⟨nameField, short.name_field, short.name_wins whole, ?_⟩
    rw [short.name, keepsName]
  content before x after whole own bare := by
    refine ⟨inner contentField x, keepWinners_eq_some.mpr
      ⟨contentField, short.content_field, short.content_wins whole own, ?_⟩, kindred x bare⟩
    rw [short.content]

theorem keepWinners_ne_nil (complete : v.Complete)
    (known : ∀ p ∈ pairs, (v.field? p.key).isSome) (some : pairs ≠ []) :
    (keepWinners v inner pairs).pairs 0 pairs ≠ [] := by
  obtain ⟨p, rest, whole⟩ := List.exists_cons_of_ne_nil some
  have member : p ∈ pairs := whole ▸ List.mem_cons_self
  obtain ⟨f, named⟩ := Option.isSome_iff_exists.mp (known p member)
  obtain ⟨m, won⟩ := exists_winner? complete.listed member named
  obtain ⟨q, here, own⟩ := winner?_eq_some complete.listed won
  exact List.ne_nil_of_mem (List.mem_filterMap.mpr ⟨(q, m),
    List.mk_mem_zipIdx_iff_getElem?.mpr here, keepWinners_eq_some.mpr ⟨f, own, won, rfl⟩⟩)

/-- The entry with its winners only. -/
def tidyEntry (v : Vocabulary F) (content : String) (inner : F → Tree → Tree) (entry : Tree) :
    Tree :=
  (keepWinners v inner (mentions v content entry)).entry v content entry

/-- It is read without a clash, with the values that its fields had. -/
theorem tidyEntry_read {nameField contentField : F} {entry : Tree} (inner : F → Tree → Tree)
    (short : Shorthand v content nameField contentField) (keepsName : ∀ x, inner nameField x = x)
    (kindred : ∀ x, (∀ entries, x ≠ .mapping entries) → Kindred x (inner contentField x))
    (readable : Readable v content entry) :
    Readable v content (tidyEntry v content inner entry) ∧
      chosen v (mentions v content (tidyEntry v content inner entry)) =
        (fun f => (chosen v (mentions v content entry) f).map (inner f)) ∧
      ∀ path, clashes v path (mentions v content (tidyEntry v content inner entry)) = [] := by
  have faithful : (keepWinners v inner (mentions v content entry)).Faithful v content _ :=
    faithful_keepWinners short keepsName kindred
  refine ⟨Change.readable_entry readable faithful
    (keepWinners_ne_nil short.complete readable.known), ?_⟩
  rw [tidyEntry, Change.mentions_entry readable faithful]
  exact chosen_keepWinners short.complete short.coherent inner _

end

/-! ### Documents -/

/-- Each of the entries that a value holds, which may be a single one. -/
def eachEntry (one : Tree → Tree) : Tree → Tree
  | .list items => .list (items.map one)
  | entry => one entry

def tidyPane : Tree → Tree := tidyEntry paneVocabulary "commands" fun _ value => value

def tidyPanesIn : WindowField → Tree → Tree
  | .panes, value => eachEntry tidyPane value
  | _, value => value

def tidyWindow : Tree → Tree := tidyEntry windowVocabulary "panes" tidyPanesIn

def tidyWindowsIn : ProjectField → Tree → Tree
  | .windows, value => eachEntry tidyWindow value
  | _, value => value

/-- The document without what loses, and with each winner under the first name of its field. -/
def tidied : Tree → Tree
  | .mapping entries =>
    .mapping ((keepWinners projectVocabulary tidyWindowsIn (plainPairs entries)).entries 0 entries)
  | other => other

/-- The clashes of a pane's entry, of a window's with its panes, and of a document. -/
def paneClashes (path : String) (entry : Tree) : List Conflict :=
  clashes paneVocabulary path (mentions paneVocabulary "commands" entry)

def windowClashes (path : String) (entry : Tree) : List Conflict :=
  clashes windowVocabulary path (mentions windowVocabulary "panes" entry) ++
    (paneEntries entry).zipIdx.flatMap fun e =>
      paneClashes (itemPath (fieldPath path "panes") e.2) e.1

def documentClashes (document : Tree) : List Conflict :=
  clashes projectVocabulary "" (rootPairs document) ++
    (windowEntries document).zipIdx.flatMap fun e => windowClashes (itemPath "windows" e.2) e.1

theorem entryList_eachEntry {one : Tree → Tree} {value : Tree}
    (single : (∀ items, value ≠ .list items) → ∀ items, one value ≠ .list items) :
    entryList (eachEntry one value) = (entryList value).map one := by
  by_cases several : ∃ items, value = .list items
  · obtain ⟨items, rfl⟩ := several
    rfl
  · have alone := not_exists.mp several
    rw [eachEntry, entryList_single alone, entryList_single (single alone)]
    · rfl
    · exact alone

/-- A list is the same if each of its entries is. -/
theorem entries_tidied {α : Type} {read : Tree → Build (List α)} {one : Tree × Nat → Build α}
    (reads : ∀ value, entryList value ≠ [] → read value = (entryList value).zipIdx.mapM one)
    {tidy : Tree → Tree} {value : Tree} {list : List α}
    (single : (∀ items, value ≠ .list items) → ∀ items, tidy value ≠ .list items)
    (some : entryList value ≠ [])
    (each : List.Forall₂ (fun e a => one (tidy e.1, e.2) = pure a)
      (entryList value).zipIdx list) :
    read (eachEntry tidy value) = pure list := by
  have entries := entryList_eachEntry single
  have still : entryList (eachEntry tidy value) ≠ [] := by simpa [entries] using some
  rw [reads _ still, entries, List.zipIdx_map]
  refine Noted.mapM_eq_pure ?_
  rw [List.forall₂_map_left_iff]
  exact each

/-! ### Panes -/

variable {home path : String} {index base : Int}

theorem tidyPane_read {entry : Tree} (readable : Readable paneVocabulary "commands" entry) :
    Readable paneVocabulary "commands" (tidyPane entry) ∧
      chosen paneVocabulary (mentions paneVocabulary "commands" (tidyPane entry)) =
        chosen paneVocabulary (mentions paneVocabulary "commands" entry) ∧
      ∀ path, paneClashes path (tidyPane entry) = [] := by
  obtain ⟨still, same, silent⟩ := tidyEntry_read (fun _ value => value) short_pane
    (fun _ => rfl) (fun _ _ => .inl rfl) readable
  refine ⟨still, same.trans ?_, silent⟩
  funext f
  exact Option.map_id'

/-- A pane is the same without what loses in its entry. -/
theorem pane_tidied {entry : Tree} {p : Pane}
    (built : (pane home path index entry).result = .ok p) :
    pane home path index (tidyPane entry) = pure p := by
  obtain ⟨readable, given⟩ := pane_eq_ok.mp built
  obtain ⟨still, same, silent⟩ := tidyPane_read readable
  refine Noted.eq_pure_of_notes ?_ (pane_eq_ok.mpr ⟨still, by rw [same]; exact given⟩)
  have notes := (pane_of_readable still home path index).2
  exact List.perm_nil.mp (notes.trans (.of_eq (silent path)))

theorem paneClashes_perm {entry : Tree} {p : Pane}
    (built : (pane home path index entry).result = .ok p) :
    (pane home path index entry).notes.Perm (paneClashes path entry) :=
  (pane_of_readable (pane_eq_ok.mp built).1 home path index).2

theorem faithful_tidyPane (pairs : List Pair) :
    (keepWinners paneVocabulary (fun _ value => value) pairs).Faithful paneVocabulary "commands"
      pairs :=
  faithful_keepWinners short_pane (fun _ => rfl) fun _ _ => .inl rfl

theorem tidyPane_not_list {entry : Tree} (single : ∀ items, entry ≠ .list items) :
    ∀ items, tidyPane entry ≠ .list items :=
  Change.entry_not_list (faithful_tidyPane _) single

theorem panes_tidied {value : Tree} {list : List Pane}
    (built : (panes home path base value).result = .ok list) :
    panes home path base (eachEntry tidyPane value) = pure list := by
  obtain ⟨some, each⟩ := panes_eq_ok.mp built
  exact entries_tidied (fun _ => panes_eq_mapM) tidyPane_not_list some
    (each.imp fun _ _ => pane_tidied)

theorem panesClashes_perm {value : Tree} {list : List Pane}
    (built : (panes home path base value).result = .ok list) :
    (panes home path base value).notes.Perm
      ((entryList value).zipIdx.flatMap fun e => paneClashes (itemPath path e.2) e.1) := by
  rw [panes_notes built]
  refine List.Perm.flatMap_left _ fun e member => ?_
  obtain ⟨p, done⟩ := exists_of_forall₂ (panes_eq_ok.mp built).2 e member
  exact paneClashes_perm done

/-! ### Windows -/

theorem kindred_eachEntry (one : Tree → Tree) {value : Tree}
    (same : (∀ items, value ≠ .list items) → Kindred value (one value)) :
    Kindred value (eachEntry one value) := by
  by_cases several : ∃ items, value = .list items
  · obtain ⟨items, rfl⟩ := several
    exact .inr ⟨items, items.map one, rfl, rfl⟩
  · have alone := not_exists.mp several
    rw [eachEntry]
    · exact same alone
    · exact alone

theorem kindred_tidyPanes {value : Tree} (bare : ∀ entries, value ≠ .mapping entries) :
    Kindred value (tidyPanesIn .panes value) :=
  kindred_eachEntry tidyPane fun _ => (faithful_tidyPane _).kindred_entry bare

theorem tidyWindow_read {entry : Tree} (readable : Readable windowVocabulary "panes" entry) :
    Readable windowVocabulary "panes" (tidyWindow entry) ∧
      chosen windowVocabulary (mentions windowVocabulary "panes" (tidyWindow entry)) =
        (fun f => (chosen windowVocabulary (mentions windowVocabulary "panes" entry) f).map
          (tidyPanesIn f)) ∧
      ∀ path, clashes windowVocabulary path
        (mentions windowVocabulary "panes" (tidyWindow entry)) = [] :=
  tidyEntry_read tidyPanesIn short_window (fun _ => rfl)
    (fun _ => kindred_tidyPanes) readable

/-- The panes are built alike, from what is left of their entries. -/
theorem windowOfFields_tidied {fields : WindowField → Option Tree} {w : Window}
    (built : (windowOfFields home path index base fields).result = .ok w) :
    windowOfFields home path index base (fun f => (fields f).map (tidyPanesIn f)) = pure w := by
  obtain ⟨frame, list, framed, panesBuilt, done⟩ := windowOfFields_eq_ok.mp built
  have same : windowFrame home path index (fun f => (fields f).map (tidyPanesIn f)) =
      .ok frame := by
    rw [← framed]
    refine windowFrame_congr fun f other => ?_
    cases f with
    | panes => exact absurd rfl other
    | _ => exact Option.map_id'
  have value : orNull (fun f => (fields f).map (tidyPanesIn f)) .panes =
      eachEntry tidyPane (orNull fields .panes) := by
    rw [orNull, orNull]
    cases fields .panes <;> rfl
  rw [windowOfFields_of_frame same, value, panes_tidied panesBuilt, pure_bind, done]
  rfl

theorem window_tidied {entry : Tree} {w : Window}
    (built : (window home path index base entry).result = .ok w) :
    window home path index base (tidyWindow entry) = pure w := by
  obtain ⟨readable, given⟩ := window_eq_ok.mp built
  obtain ⟨still, same, silent⟩ := tidyWindow_read readable
  obtain ⟨result, notes⟩ := window_of_readable still home path index base
  rw [same, windowOfFields_tidied given] at result notes
  rw [silent] at notes
  exact Noted.eq_pure_of_notes (List.perm_nil.mp notes) result

theorem windowOfFields_clashes {fields : WindowField → Option Tree} {w : Window}
    (built : (windowOfFields home path index base fields).result = .ok w) :
    (windowOfFields home path index base fields).notes.Perm
      ((entryList (orNull fields .panes)).zipIdx.flatMap fun e =>
        paneClashes (itemPath (fieldPath path "panes") e.2) e.1) := by
  obtain ⟨frame, list, framed, panesBuilt, done⟩ := windowOfFields_eq_ok.mp built
  rw [windowOfFields_of_frame framed, Noted.bind_of_ok panesBuilt, done]
  exact (List.Perm.of_eq (List.append_nil _)).trans (panesClashes_perm panesBuilt)

theorem windowClashes_perm {entry : Tree} {w : Window}
    (built : (window home path index base entry).result = .ok w) :
    (window home path index base entry).notes.Perm (windowClashes path entry) := by
  obtain ⟨readable, given⟩ := window_eq_ok.mp built
  obtain ⟨-, notes⟩ := window_of_readable readable home path index base
  exact notes.trans ((windowOfFields_clashes given).append_left _)

theorem tidyWindow_not_list {entry : Tree} (single : ∀ items, entry ≠ .list items) :
    ∀ items, tidyWindow entry ≠ .list items :=
  Change.entry_not_list (faithful_keepWinners short_window (fun _ => rfl)
    fun _ => kindred_tidyPanes) single

theorem windows_tidied {windowBase paneBase : Int} {value : Tree} {list : List Window}
    (built : (windows home windowBase paneBase value).result = .ok list) :
    windows home windowBase paneBase (eachEntry tidyWindow value) = pure list := by
  obtain ⟨some, each⟩ := windows_eq_ok.mp built
  exact entries_tidied (fun _ => windows_eq_mapM) tidyWindow_not_list some
    (each.imp fun _ _ => window_tidied)

theorem windowsClashes_perm {windowBase paneBase : Int} {value : Tree} {list : List Window}
    (built : (windows home windowBase paneBase value).result = .ok list) :
    (windows home windowBase paneBase value).notes.Perm
      ((entryList value).zipIdx.flatMap fun e => windowClashes (itemPath "windows" e.2) e.1) := by
  rw [windows_notes built]
  refine List.Perm.flatMap_left _ fun e member => ?_
  obtain ⟨w, done⟩ := exists_of_forall₂ (windows_eq_ok.mp built).2 e member
  exact windowClashes_perm done

/-! ### Projects -/

theorem projectOfFields_tidied {wishes : Wishes} {fields : ProjectField → Option Tree} {p : Project}
    (built : (projectOfFields home wishes fields).result = .ok p) :
    projectOfFields home wishes (fun f => (fields f).map (tidyWindowsIn f)) = pure p := by
  obtain ⟨frame, list, framed, windowsBuilt, done⟩ := projectOfFields_eq_ok.mp built
  have same : projectFrame home wishes (fun f => (fields f).map (tidyWindowsIn f)) =
      .ok frame := by
    rw [← framed]
    refine projectFrame_congr fun f other => ?_
    cases f with
    | windows => exact absurd rfl other
    | _ => exact Option.map_id'
  have value : orNull (fun f => (fields f).map (tidyWindowsIn f)) .windows =
      eachEntry tidyWindow (orNull fields .windows) := by
    rw [orNull, orNull]
    cases fields .windows <;> rfl
  rw [projectOfFields_of_frame same, value, windows_tidied windowsBuilt, pure_bind, done]
  rfl

theorem projectOfFields_clashes {wishes : Wishes} {fields : ProjectField → Option Tree}
    {p : Project} (built : (projectOfFields home wishes fields).result = .ok p) :
    (projectOfFields home wishes fields).notes.Perm
      ((entryList (orNull fields .windows)).zipIdx.flatMap fun e =>
        windowClashes (itemPath "windows" e.2) e.1) := by
  obtain ⟨frame, list, framed, windowsBuilt, done⟩ := projectOfFields_eq_ok.mp built
  rw [projectOfFields_of_frame framed, Noted.bind_of_ok windowsBuilt, done]
  exact (List.Perm.of_eq (List.append_nil _)).trans (windowsClashes_perm windowsBuilt)

theorem tidied_read {document : Tree} (readable : ReadableRoot document) :
    ReadableRoot (tidied document) ∧
      chosen projectVocabulary (rootPairs (tidied document)) =
        (fun f => (chosen projectVocabulary (rootPairs document) f).map (tidyWindowsIn f)) ∧
      clashes projectVocabulary "" (rootPairs (tidied document)) = [] := by
  obtain ⟨entries, rfl⟩ := readable.mapping
  have keeps : (keepWinners projectVocabulary tidyWindowsIn (plainPairs entries)).KeepsFields
      projectVocabulary := keepWinners_keeps coherent_project
  obtain ⟨same, silent⟩ :=
    chosen_keepWinners complete_project coherent_project tidyWindowsIn (plainPairs entries)
  refine ⟨keeps.readableRoot readable fun f => ?_, ?_⟩
  · rw [rootPairs, same]
    exact Option.isSome_map
  · rw [tidied, keeps.rootPairs_eq readable]
    exact ⟨same, silent ""⟩

/-! ### Precedence -/

/-- A pane that has of each field the value that wins in its entry. -/
def PaneOfWinners (home path : String) (index : Int) (entry : Tree) (p : Pane) : Prop :=
  paneOfFields home path index
    (chosen paneVocabulary (mentions paneVocabulary "commands" entry)) = .ok p

/-- The same of a window, and of its panes at their places. -/
structure WindowOfWinners (home path : String) (index base : Int) (entry : Tree) (w : Window) :
    Prop where
  fields : (windowOfFields home path index base
    (chosen windowVocabulary (mentions windowVocabulary "panes" entry))).result = .ok w
  panes : List.Forall₂ (fun e p =>
      PaneOfWinners home (itemPath (fieldPath path "panes") e.2) (base + e.2) e.1 p)
    (paneEntries entry).zipIdx w.panes

/-- The same of a project, and of its windows at their places. -/
structure ProjectOfWinners (home : String) (wishes : Wishes) (document : Tree) (p : Project) :
    Prop where
  fields : (projectOfFields home wishes
    (chosen projectVocabulary (rootPairs document))).result = .ok p
  windows : List.Forall₂ (fun e w =>
      WindowOfWinners home (itemPath "windows" e.2) (p.windowBaseIndex + e.2) p.paneBaseIndex e.1 w)
    (windowEntries document).zipIdx p.windows

theorem window_ofWinners {entry : Tree} {w : Window}
    (built : (window home path index base entry).result = .ok w) :
    WindowOfWinners home path index base entry w := by
  obtain ⟨-, given⟩ := window_eq_ok.mp built
  refine ⟨given, ?_⟩
  obtain ⟨frame, list, -, panesBuilt, done⟩ := windowOfFields_eq_ok.mp given
  rw [windowWith_eq_ok done]
  exact (panes_eq_ok.mp panesBuilt).2.imp fun _ _ done => (pane_eq_ok.mp done).2

theorem project_ofWinners {wishes : Wishes} {document : Tree} {p : Project}
    (built : (build home wishes document).result = .ok p) :
    ProjectOfWinners home wishes document p := by
  obtain ⟨-, given⟩ := build_eq_ok.mp built
  refine ⟨given, ?_⟩
  obtain ⟨frame, list, -, windowsBuilt, done⟩ := projectOfFields_eq_ok.mp given
  rw [projectWith_eq_ok done]
  exact (windows_eq_ok.mp windowsBuilt).2.imp fun _ _ => window_ofWinners

/-- Of the names of a field that a document uses, the first of the vocabulary is heard, at every
level; before all names come the name that an entry begins with and the content that follows it.
Nothing else has a part in the project: it is the same if all that loses is taken away and each
winner stands under the first name of its field. The losers with another value than the winner's are
noted, each once, and nothing else is. -/
theorem build_precedence {wishes : Wishes} {document : Tree} {p : Project}
    (built : (build home wishes document).result = .ok p) :
    ProjectOfWinners home wishes document p ∧
      build home wishes (tidied document) = pure p ∧
      (build home wishes document).notes.Perm (documentClashes document) := by
  obtain ⟨readable, given⟩ := build_eq_ok.mp built
  refine ⟨project_ofWinners built, ?_, ?_⟩
  · obtain ⟨still, same, silent⟩ := tidied_read readable
    obtain ⟨result, notes⟩ := build_of_readable still home wishes
    rw [same, projectOfFields_tidied given] at result notes
    rw [silent] at notes
    exact Noted.eq_pure_of_notes (List.perm_nil.mp notes) result
  · obtain ⟨-, notes⟩ := build_of_readable readable home wishes
    exact notes.trans ((projectOfFields_clashes given).append_left _)

/-- A pane whose commands are named twice, the better name with a null. -/
def listingEntry : Tree :=
  .mapping [(.text "command", .text "ls"), (.text "commands", .null)]

/-- A pane that begins with its name, and says its name and its command once more. -/
def logEntry : Tree := .mapping [(.text "log", .text "tail"), (.text "title", .text "log"),
  (.text "command", .text "cat")]

/-- A window with a directory in its definition and two after it. -/
def editorDefinition : Tree := .mapping [
  (.text "editor", .mapping [
    (.text "root", .text "/a"), (.text "panes", .list [listingEntry, logEntry])]),
  (.text "working_dir", .text "/b"), (.text "root", .text "/a"), (.text "title", .text "editor")]

def ambiguousDocument : Tree := .mapping [
  (.text "name", .text "old"), (.text "session_name", .text "work"),
  (.text "windows", .list [editorDefinition])]

def unambiguousDocument : Tree := .mapping [
  (.text "session_name", .text "work"),
  (.text "windows", .list [.mapping [
    (.text "editor", .mapping [(.text "panes", .list [
      .mapping [(.text "commands", .null)], .mapping [(.text "log", .text "tail")]])]),
    (.text "working_dir", .text "/b")]])]

def logPane : Pane := { index := 2, name := some "log", commands := ["tail"] }

def settledWindow : Window where
  name := some "editor"
  workingDir := some "/b"
  panes := [{}, logPane]

def settledProject : Project := { sessionName := some "work", windows := [settledWindow] }

theorem build_ambiguousDocument :
    (build "/home/ann" {} ambiguousDocument).result = .ok settledProject := by
  have listing : (pane "/home/ann" "windows[0].panes[0]" 1 listingEntry).result = .ok {} :=
    pane_eq_ok.mpr ⟨⟨.inl rfl, by decide⟩, eq_ok_of_toOption (by decide +kernel)⟩
  have log : (pane "/home/ann" "windows[0].panes[1]" 2 logEntry).result = .ok logPane :=
    pane_eq_ok.mpr ⟨⟨.inr ⟨.inr rfl, rfl, nofun⟩, by decide⟩, eq_ok_of_toOption (by decide +kernel)⟩
  have window : (window "/home/ann" "windows[0]" 1 1 editorDefinition).result =
      .ok settledWindow := by
    refine window_eq_ok.mpr ⟨⟨.inr ⟨.inr rfl, rfl, nofun⟩, by decide⟩, windowOfFields_eq_ok.mpr
      ⟨{ settledWindow with panes := [] }, [{}, logPane], eq_ok_of_toOption (by decide +kernel),
        ?_, rfl⟩⟩
    exact panes_eq_ok.mpr ⟨nofun, .cons listing (.cons log .nil)⟩
  refine build_eq_ok.mpr ⟨⟨⟨_, rfl⟩, by decide, by decide⟩, projectOfFields_eq_ok.mpr
    ⟨{ settledProject with windows := [] }, [settledWindow], eq_ok_of_toOption (by decide +kernel),
      ?_, rfl⟩⟩
  exact windows_eq_ok.mpr ⟨nofun, .cons window .nil⟩

theorem tidied_ambiguousDocument : tidied ambiguousDocument = unambiguousDocument := rfl

/-- Both directories that lose are noted, and the name that is said twice is not. -/
def ambiguities : List Conflict := [
  ⟨.project, "", "session_name", "session_name", "name"⟩,
  ⟨.window, "windows[0]", "working_dir", "working_dir", "root"⟩,
  ⟨.window, "windows[0]", "working_dir", "working_dir", "root"⟩,
  ⟨.pane, "windows[0].panes[0]", "commands", "commands", "command"⟩,
  ⟨.pane, "windows[0].panes[1]", "commands", "commands", "command"⟩]

theorem documentClashes_ambiguousDocument :
    documentClashes ambiguousDocument = ambiguities := by decide +kernel

theorem build_precedence_ambiguous :
    (build "/home/ann" {} ambiguousDocument).result = .ok settledProject ∧
      build "/home/ann" {} unambiguousDocument = pure settledProject ∧
      (build "/home/ann" {} ambiguousDocument).notes.Perm ambiguities := by
  obtain ⟨-, same, notes⟩ := build_precedence build_ambiguousDocument
  rw [tidied_ambiguousDocument] at same
  rw [documentClashes_ambiguousDocument] at notes
  exact ⟨build_ambiguousDocument, same, notes⟩

end SessionPlan.Document
