import SessionPlan.Proofs.Document.Faults
import SessionPlan.Proofs.Document.WellFormed

/-! Building a project trips over nothing but what stands in its document. Each reader is followed
to the place where its value was found: a field's value stands under a name of the field, and a
pane is a part of its window. -/
namespace SessionPlan.Document
open SessionPlan.Text
open SessionPlan.Tree (Part)

/-! ### Fields -/

section Fields
variable {F : Type} [DecidableEq F]

omit [DecidableEq F] in
theorem mem_names_of_find? {v : Vocabulary F} {name : String} {f : F} {rank : Nat}
    (found : v.find? name = some (f, rank)) : ∃ names, (f, names) ∈ v.names ∧ name ∈ names := by
  obtain ⟨⟨g, names⟩, member, here⟩ := List.exists_of_findSome?_eq_some found
  obtain ⟨place, indexed, eq⟩ := Option.map_eq_some_iff.mp here
  cases eq
  exact ⟨names, member, List.isSome_idxOf?.mp (by rw [indexed]; rfl)⟩

theorem readFields_failsOnly {faults : Fault → Prop} (v : Vocabulary F) (path : String)
    {pairs : List Pair}
    (covers : ∀ pair ∈ pairs, Covers (Failure.Among faults) pair.key.integers) :
    FailsOnly (Failure.Among faults) (readFields v path pairs).result := by
  have each : ∀ pair ∈ pairs, FailsOnly (Failure.Among faults) (pair.occurrence v path) := by
    intro pair member
    unfold Pair.occurrence
    split
    · exact .ok _
    · exact .rejectNumbers trivial (covers pair member)
  simp only [readFields, Noted.result_bind_eq]
  exact (FailsOnly.mapM each).bind fun _ _ => .ok _

omit [DecidableEq F] in
/-- An occurrence keeps the value of its pair, and the pair's key is a name of the field. -/
theorem occurrence_eq_ok {v : Vocabulary F} {path : String} {pair : Pair} {o : Occurrence F}
    (occurs : pair.occurrence v path = .ok o) :
    pair.value = o.value ∧
      ∃ name names, pair.key = .text name ∧ (o.field, names) ∈ v.names ∧ name ∈ names := by
  unfold Pair.occurrence at occurs
  split at occurs
  · rename_i named
    cases occurs
    unfold Vocabulary.keyField? at named
    split at named
    · rename_i key
      obtain ⟨⟨f, place⟩, spelled, eq⟩ := Option.map_eq_some_iff.mp named
      cases eq
      obtain ⟨names, listed, accepted⟩ := mem_names_of_find? spelled
      exact ⟨rfl, _, names, key, listed, accepted⟩
    · cases named
  · exact absurd occurs (reject_ne_ok _ _ _)

/-- The value of a field stands in a pair under one of the names of the field. -/
theorem readFields_given {v : Vocabulary F} {path : String} {pairs : List Pair}
    {fields : F → Option Tree} (read : (readFields v path pairs).result = .ok fields) {f : F}
    {value : Tree} (found : fields f = some value) :
    ∃ pair ∈ pairs, pair.value = value ∧
      ∃ name names, pair.key = .text name ∧ (f, names) ∈ v.names ∧ name ∈ names := by
  simp only [readFields, Noted.result_bind_eq_ok, Noted.result_lift] at read
  obtain ⟨occurrences, made, -, -, eq⟩ := read
  cases eq
  obtain ⟨o, first, rfl⟩ := Option.map_eq_some_iff.mp found
  have ranked := List.mem_mergeSort.mp (List.mem_of_head? first)
  obtain ⟨member, own⟩ := List.mem_filter.mp ranked
  obtain rfl : o.field = f := of_decide_eq_true own
  obtain ⟨pair, known, occurs⟩ := mem_of_mapM_eq_ok made member
  exact ⟨pair, known, occurrence_eq_ok occurs⟩

theorem entryName_failsOnly {faults : Fault → Prop} (entity : Entity) (path : String)
    {name : Tree} (covers : Covers (Failure.Among faults) name.integers) :
    FailsOnly (Failure.Among faults) (entryName entity path name) := by
  unfold entryName
  split
  · exact .ok _
  · exact .ok _
  · split
    · exact (FailsOnly.written covers).bind fun _ _ => .ok _
    · exact .rejectNumbers trivial covers

omit [DecidableEq F] in
theorem entryContent_failsOnly (v : Vocabulary F) (content path : String) {name value t : Tree}
    (key : ∀ n ∈ name.integers, n ∈ t.integers) (part : Part value t) :
    FailsOnly (Blamed t) (entryContent v content path name value) := by
  unfold entryContent
  split
  · rename_i nested
    split
    · rename_i unknown other found
      have member := List.mem_of_find?_eq_some found
      refine .rejectNumbers trivial ?_
      rw [Cause.integers]
      exact covers_append.mpr ⟨covers_blamed fun n => part.keyIntegers member, covers_blamed key⟩
    · exact .ok _
  · refine .rejectNumbers trivial (covers_blamed fun n member => key n ?_)
    simpa [Cause.integers, Tree.integers] using member
  · exact .ok _
  · exact .ok _

omit [DecidableEq F] in
theorem entryPairs_failsOnly (v : Vocabulary F) (content path : String)
    (entries : List (Tree × Tree)) :
    FailsOnly (Blamed (.mapping entries)) (entryPairs v content path entries) := by
  unfold entryPairs
  split
  · exact .reject trivial rfl
  · rename_i name value rest
    have key : ∀ n ∈ name.integers, n ∈ (Tree.mapping ((name, value) :: rest)).integers :=
      fun n => Part.here.keyIntegers List.mem_cons_self
    split
    · exact .ok _
    · refine (entryName_failsOnly v.entity path (covers_blamed key)).bind fun _ _ =>
        (entryContent_failsOnly v content path key (.entry List.mem_cons_self .here)).bind
          fun _ _ => ?_
      split
      · exact FailsOnly.bind (.reject trivial rfl) fun _ _ => .ok _
      · exact .ok _

/-- Where a pair of an entry comes from: it stands in the entry as it is, or it gives the entry's
name, written out, or its content, which then is a part of the entry. -/
def Origin (t : Tree) (content : String) (pair : Pair) : Prop :=
  (∃ entries, Part (.mapping entries) t ∧ (pair.key, pair.value) ∈ entries) ∨
    (pair.key = .text "name" ∧ ∃ s, pair.value = .text s) ∨
    (pair.key = .text content ∧ Part pair.value t)

theorem Origin.key {t : Tree} {content : String} {pair : Pair} (origin : Origin t content pair) :
    ∀ n ∈ pair.key.integers, n ∈ t.integers := by
  intro n member
  rcases origin with ⟨entries, inside, held⟩ | ⟨named, -⟩ | ⟨contained, -⟩
  · exact inside.keyIntegers held member
  · simp [named, Tree.integers] at member
  · simp [contained, Tree.integers] at member

theorem origin_of_plainPairs {t : Tree} {content : String} {entries : List (Tree × Tree)}
    (inside : ∀ e ∈ entries, ∃ outer, Part (.mapping outer) t ∧ e ∈ outer) :
    ∀ pair ∈ plainPairs entries, Origin t content pair := by
  intro pair member
  obtain ⟨⟨key, value⟩, known, rfl⟩ := List.mem_map.mp member
  exact .inl (inside _ known)

theorem entryName_origin {entity : Entity} {path : String} {name : Tree} {pairs : List Pair}
    (read : entryName entity path name = .ok pairs) :
    ∀ pair ∈ pairs, pair.key = .text "name" ∧ ∃ s, pair.value = .text s := by
  unfold entryName at read
  split at read
  · cases read
    simp
  · cases read
    simp
  · split at read
    · obtain ⟨s, -, eq⟩ := bind_eq_ok.mp read
      cases eq
      simp
    · exact absurd read (reject_ne_ok _ _ _)

omit [DecidableEq F] in
theorem entryContent_origin {v : Vocabulary F} {content path : String} {name value t : Tree}
    {pairs : List Pair} (part : Part value t)
    (read : entryContent v content path name value = .ok pairs) :
    ∀ pair ∈ pairs, Origin t content pair := by
  unfold entryContent at read
  split at read
  · rename_i nested
    split at read
    · exact absurd read (reject_ne_ok _ _ _)
    · cases read
      exact origin_of_plainPairs fun e known => ⟨nested, part, known⟩
  · exact absurd read (reject_ne_ok _ _ _)
  · cases read
    simp
  · cases read
    intro pair member
    obtain rfl := List.mem_singleton.mp member
    exact .inr (.inr ⟨rfl, part⟩)

omit [DecidableEq F] in
theorem entryPairs_origin {v : Vocabulary F} {content path : String}
    {entries : List (Tree × Tree)} {pairs : List Pair}
    (laid : entryPairs v content path entries = .ok pairs) :
    ∀ pair ∈ pairs, Origin (.mapping entries) content pair := by
  unfold entryPairs at laid
  split at laid
  · exact absurd laid (reject_ne_ok _ _ _)
  · rename_i name value rest
    split at laid
    · cases laid
      exact origin_of_plainPairs fun e known => ⟨_, .here, known⟩
    · obtain ⟨named, nameRead, laid⟩ := bind_eq_ok.mp laid
      obtain ⟨filled, contentRead, laid⟩ := bind_eq_ok.mp laid
      split at laid
      · cases laid
      · cases laid
        intro pair member
        rcases List.mem_append.mp member with member | further
        · rcases List.mem_append.mp member with own | inner
          · exact .inr (.inl (entryName_origin nameRead pair own))
          · exact entryContent_origin (.entry List.mem_cons_self .here) contentRead pair inner
        · exact origin_of_plainPairs
            (fun e known => ⟨_, .here, List.mem_cons_of_mem _ known⟩) pair further

/-- The values of fields, as far as they stand in a tree: under a name of the field or, where an
entry gives its name and content without saying so, as these. A name is then written out. -/
def Given (v : Vocabulary F) (content : String) (t : Tree) (fields : F → Option Tree) : Prop :=
  ∀ f value, fields f = some value → ∃ name names, (f, names) ∈ v.names ∧ name ∈ names ∧
    (t.Holds name value ∨ (name = "name" ∧ ∃ s, value = .text s) ∨
      (name = content ∧ Part value t))

theorem given_of_origin {v : Vocabulary F} {content path : String} {t : Tree} {pairs : List Pair}
    {fields : F → Option Tree} (origin : ∀ pair ∈ pairs, Origin t content pair)
    (read : (readFields v path pairs).result = .ok fields) : Given v content t fields := by
  intro f value found
  obtain ⟨pair, member, rfl, name, names, key, listed, accepted⟩ := readFields_given read found
  refine ⟨name, names, listed, accepted, ?_⟩
  rcases origin pair member with ⟨entries, inside, held⟩ | ⟨named, written⟩ | ⟨contained, part⟩
  · rw [key] at held
    exact .inl ⟨entries, inside, held⟩
  · rw [key] at named
    exact .inr (.inl ⟨Tree.text.inj named, written⟩)
  · rw [key] at contained
    exact .inr (.inr ⟨Tree.text.inj contained, part⟩)

/-- The names of a field are known, so one of them was used. -/
theorem Given.place {v : Vocabulary F} {content : String} {t value : Tree}
    {fields : F → Option Tree} {f : F} {names : List String} (given : Given v content t fields)
    (own : v.names.filter (·.1 = f) = [(f, names)]) (found : fields f = some value) :
    ∃ name ∈ names, t.Holds name value ∨ (name = "name" ∧ ∃ s, value = .text s) ∨
      (name = content ∧ Part value t) := by
  obtain ⟨name, others, listed, accepted, place⟩ := given f value found
  have same : (f, others) ∈ v.names.filter (·.1 = f) := List.mem_filter.mpr ⟨listed, by simp⟩
  rw [own] at same
  obtain rfl := (Prod.mk.inj (List.mem_singleton.mp same)).2
  exact ⟨name, accepted, place⟩

/-- A value that was given in so many words stands under one of the names of its field. -/
theorem Given.held {v : Vocabulary F} {content : String} {t value : Tree}
    {fields : F → Option Tree} {f : F} {names : List String} (given : Given v content t fields)
    (own : v.names.filter (·.1 = f) = [(f, names)]) (said : "name" ∉ names ∧ content ∉ names)
    (found : fields f = some value) : ∃ name ∈ names, t.Holds name value := by
  obtain ⟨name, accepted, held | ⟨rfl, -⟩ | ⟨rfl, -⟩⟩ := given.place own found
  · exact ⟨name, accepted, held⟩
  · exact absurd accepted said.1
  · exact absurd accepted said.2

theorem Given.part {v : Vocabulary F} {content : String} {t value : Tree}
    {fields : F → Option Tree} {f : F} {names : List String} (given : Given v content t fields)
    (own : v.names.filter (·.1 = f) = [(f, names)]) (said : "name" ∉ names)
    (found : fields f = some value) : Part value t := by
  obtain ⟨name, accepted, held | ⟨rfl, -⟩ | ⟨-, part⟩⟩ := given.place own found
  · exact held.part
  · exact absurd accepted said
  · exact part

omit [DecidableEq F] in
/-- However a value was given, its integers stand in the tree. -/
theorem Given.covers {v : Vocabulary F} {content : String} {t : Tree} {fields : F → Option Tree}
    (given : Given v content t fields) (f : F) : Covers (Blamed t) (orNull fields f).integers := by
  refine covers_blamed fun n member => ?_
  cases found : fields f with
  | none => simp [orNull, found, Tree.integers] at member
  | some value =>
    rw [orNull, found, Option.getD_some] at member
    obtain ⟨_, _, -, -, held | ⟨-, s, rfl⟩ | ⟨-, part⟩⟩ := given f value found
    · exact held.part.integers member
    · simp [Tree.integers] at member
    · exact part.integers member

end Fields

theorem orNull_failsOnly {F : Type} {allowed : Failure → Prop} {fields : F → Option Tree} {f : F}
    (read : Tree → Except Failure α) (null : FailsOnly allowed (read .null))
    (each : ∀ value, fields f = some value → FailsOnly allowed (read value)) :
    FailsOnly allowed (read (orNull fields f)) := by
  rw [orNull]
  cases found : fields f with
  | none => exact null
  | some value => exact each value found

theorem optionalDirectory_failsOnly {t : Tree} {value : Option Tree}
    (held : ∀ v ∈ value, ∃ key ∈ ["working_dir", "root"], t.Holds key v)
    (home path : String) : FailsOnly (Blamed t) (optionalDirectory home path value) := by
  cases value with
  | none => exact .ok _
  | some v =>
    obtain ⟨key, field, stands⟩ := held v rfl
    exact (directory_failsOnly field stands home path).bind fun _ _ => .ok _

/-! ### Panes, windows and projects -/

theorem paneOfFields_failsOnly {t : Tree} {fields : PaneField → Option Tree}
    (given : Given paneVocabulary "commands" t fields) (home path : String) (index : Int) :
    FailsOnly (Blamed t) (paneOfFields home path index fields) := by
  have dir : ∀ v ∈ fields .workingDir, ∃ key ∈ ["working_dir", "root"], t.Holds key v :=
    fun v found => given.held rfl (by decide) found
  have size : ∀ v, fields .splitSize = some v → t.Holds "split_size" v := by
    intro v found
    obtain ⟨name, own, held⟩ := given.held (f := .splitSize) rfl (by decide) found
    obtain rfl := List.mem_singleton.mp own
    exact held
  exact (optionalText_failsOnly _ (given.covers _)).bind fun _ _ =>
    (optionalDirectory_failsOnly dir home _).bind fun _ _ =>
    (splitDirection_failsOnly _ (given.covers _)).bind fun _ _ =>
    (count_failsOnly _ (given.covers _)).bind fun _ _ =>
    (orNull_failsOnly (splitSize _) (.ok _) fun v found =>
      splitSize_failsOnly (size v found) _).bind fun _ _ =>
    (clearFlag_failsOnly _ (given.covers _)).bind fun _ _ =>
    (commands_failsOnly _ (given.covers _)).bind fun _ _ =>
    (commands_failsOnly _ (given.covers _)).bind fun _ _ =>
    (commands_failsOnly _ (given.covers _)).bind fun _ _ => .ok _

theorem pane_failsOnly (home path : String) (index : Int) (entry : Tree) :
    FailsOnly (Blamed entry) (pane home path index entry).result := by
  unfold pane
  split
  · exact .ok _
  · simp only [Noted.result_bind_eq, Noted.result_liftM]
    exact (entryPairs_failsOnly _ _ _ _).bind fun pairs laid =>
      (readFields_failsOnly _ _ fun pair member =>
        covers_blamed (entryPairs_origin laid pair member).key).bind fun fields read =>
        paneOfFields_failsOnly (given_of_origin (entryPairs_origin laid) read) home path index
  · simp only [Noted.result_bind_eq, Noted.result_liftM]
    exact (commands_failsOnly _ (covers_blamed fun _ => id)).bind fun _ _ => .ok _
  · split
    · simp only [Noted.result_bind_eq, Noted.result_liftM]
      exact (commands_failsOnly _ (covers_blamed fun _ => id)).bind fun _ _ => .ok _
    · exact .reject trivial rfl

theorem paneList_failsOnly {t : Tree} (home path : String) (base : Int) (position : Nat)
    {entries : List Tree} (parts : ∀ entry ∈ entries, Part entry t) :
    FailsOnly (Blamed t) (paneList home path base position entries).result := by
  induction entries generalizing position with
  | nil => exact .ok _
  | cons entry rest ih =>
    have first := failsOnly_of_part
      (pane_failsOnly home (itemPath path position) (base + position) entry)
      (parts entry List.mem_cons_self)
    have later := ih (position + 1) fun e member => parts e (List.mem_cons_of_mem _ member)
    simp only [paneList, Noted.result_bind_eq]
    exact first.bind fun _ _ => later.bind fun _ _ => .ok _

/-- The entries of a value are parts of it. -/
theorem part_of_mem_entryList {value : Tree} : ∀ entry ∈ entryList value, Part entry value := by
  intro entry member
  unfold entryList at member
  split at member
  · exact .item member .here
  · obtain rfl := List.mem_singleton.mp member
    exact .here

theorem panes_failsOnly (home path : String) (base : Int) (value : Tree) :
    FailsOnly (Blamed value) (panes home path base value).result := by
  unfold panes
  split
  · exact .ok _
  · split
    · exact .reject trivial rfl
    · exact paneList_failsOnly home path base 0 part_of_mem_entryList

theorem checkLayout_failsOnly {faults : Fault → Prop} (path : String) (w : Window) :
    FailsOnly (Failure.Among faults) (checkLayout path w) := by
  unfold checkLayout
  split
  · exact .reject trivial rfl
  · exact .ok _

theorem windowOfFields_failsOnly {t : Tree} {fields : WindowField → Option Tree}
    (given : Given windowVocabulary "panes" t fields) (home path : String) (index base : Int) :
    FailsOnly (Blamed t) (windowOfFields home path index base fields).result := by
  have dir : ∀ v ∈ fields .workingDir, ∃ key ∈ ["working_dir", "root"], t.Holds key v :=
    fun v found => given.held rfl (by decide) found
  have inner : ∀ v, fields .panes = some v → Part v t :=
    fun v found => given.part rfl (by decide) found
  simp only [windowOfFields, Noted.result_bind_eq, Noted.result_liftM]
  exact (optionalText_failsOnly _ (given.covers _)).bind fun _ _ =>
    (targetName_failsOnly _ _ (given.covers _)).bind fun _ _ =>
    (optionalDirectory_failsOnly dir home _).bind fun _ _ =>
    (commands_failsOnly _ (given.covers _)).bind fun _ _ =>
    (commands_failsOnly _ (given.covers _)).bind fun _ _ =>
    (commands_failsOnly _ (given.covers _)).bind fun _ _ =>
    (commands_failsOnly _ (given.covers _)).bind fun _ _ =>
    (commands_failsOnly _ (given.covers _)).bind fun _ _ =>
    (orNull_failsOnly (fun v => (panes home _ base v).result) (.ok _) fun v found =>
      failsOnly_of_part (panes_failsOnly home _ base v) (inner v found)).bind fun _ _ =>
    (checkLayout_failsOnly _ _).bind fun _ _ => .ok _

theorem window_failsOnly (home path : String) (index base : Int) (entry : Tree) :
    FailsOnly (Blamed entry) (window home path index base entry).result := by
  unfold window
  split
  · exact .ok _
  · simp only [Noted.result_bind_eq, Noted.result_liftM]
    exact (entryPairs_failsOnly _ _ _ _).bind fun pairs laid =>
      (readFields_failsOnly _ _ fun pair member =>
        covers_blamed (entryPairs_origin laid pair member).key).bind fun fields read =>
        windowOfFields_failsOnly (given_of_origin (entryPairs_origin laid) read) home path index base
  · simp only [Noted.result_bind_eq]
    exact (panes_failsOnly _ _ _ _).bind fun _ _ => .ok _
  · split
    · simp only [Noted.result_bind_eq]
      exact (panes_failsOnly _ _ _ _).bind fun _ _ => .ok _
    · exact .reject trivial rfl

theorem windowList_failsOnly {t : Tree} (home : String) (windowBase paneBase : Int)
    (position : Nat) {entries : List Tree} (parts : ∀ entry ∈ entries, Part entry t) :
    FailsOnly (Blamed t) (windowList home windowBase paneBase position entries).result := by
  induction entries generalizing position with
  | nil => exact .ok _
  | cons entry rest ih =>
    have first := failsOnly_of_part
      (window_failsOnly home (itemPath "windows" position) (windowBase + position) paneBase entry)
      (parts entry List.mem_cons_self)
    have later := ih (position + 1) fun e member => parts e (List.mem_cons_of_mem _ member)
    simp only [windowList, Noted.result_bind_eq]
    exact first.bind fun _ _ => later.bind fun _ _ => .ok _

theorem windows_failsOnly (home : String) (windowBase paneBase : Int) (value : Tree) :
    FailsOnly (Blamed value) (windows home windowBase paneBase value).result := by
  unfold windows
  split
  · exact .ok _
  · split
    · exact .reject trivial rfl
    · exact windowList_failsOnly home windowBase paneBase 0 part_of_mem_entryList

/-- Windows are numbered from the base index, those of a list by their places in it. -/
theorem windows_numbered {home : String} {windowBase paneBase : Int} {value : Tree}
    {list : List Window} (read : (windows home windowBase paneBase value).result = .ok list)
    {w : Window} (member : w ∈ list) :
    w.index = windowBase ∨ ∃ entries, value = .list entries ∧
      ∃ k < entries.length, w.index = windowBase + (k : Nat) := by
  obtain ⟨i, found⟩ := List.mem_iff_getElem?.mp member
  obtain ⟨bound, -⟩ := List.getElem?_eq_some_iff.mp found
  have index := ((windows_wellFormed read).2 i w found).index
  by_cases first : i = 0
  · exact .inl (by simpa [first] using index)
  · refine .inr ?_
    unfold windows at read
    split at read
    · cases read
      simp at bound
      omega
    · split at read
      · cases read
      · rw [(windowList_wellFormed read).1] at bound
        cases value with
        | list entries => exact ⟨entries, rfl, i, bound, index⟩
        | _ =>
          rw [entryList, List.length_singleton] at bound
          · omega
          · exact nofun

theorem sessionName_failsOnly {faults : Fault → Prop} {fields : ProjectField → Option Tree}
    (covers : Covers (Failure.Among faults) (orNull fields .sessionName).integers)
    (name : Option String) : FailsOnly (Failure.Among faults) (sessionName fields name) := by
  refine (targetName_failsOnly _ _ covers).bind fun declared _ => ?_
  split
  · exact .ok _
  · split
    · exact .ok _
    · exact targetName_failsOnly _ _ nofun

theorem attachment_failsOnly {faults : Fault → Prop} {fields : ProjectField → Option Tree}
    (covers : ∀ f, Covers (Failure.Among faults) (orNull fields f).integers)
    (forced : Option Bool) : FailsOnly (Failure.Among faults) (attachment fields forced) := by
  refine (optionalFlag_failsOnly _ (covers _)).bind fun attach _ =>
    (optionalFlag_failsOnly _ (covers _)).bind fun detached _ => ?_
  split
  · exact .reject trivial rfl
  · exact .ok _

def selectorNumbers : Option Selector → List Int
  | some (.index n) => [n]
  | some (.name _) | none => []

/-- The numbers that the check of a startup selection goes by. -/
def startupNumbers (selected : Option Selector) (pane : Option Int) (windows : List Window) :
    List Int :=
  selectorNumbers selected ++ pane.toList ++ windows.map Window.index

theorem checkStartup_failsOnly {faults : Fault → Prop} {p : Project}
    (covers : Covers (Failure.Among faults)
      (startupNumbers p.startupWindow p.startupPane p.windows)) :
    FailsOnly (Failure.Among faults) (checkStartup p) := by
  rw [startupNumbers, covers_append, covers_append] at covers
  obtain ⟨⟨selected, pane⟩, windows⟩ := covers
  unfold checkStartup
  split
  · refine .rejectNumbers trivial ?_
    rcases given : p.startupWindow with _ | n | s
    · exact nofun
    · rw [given] at selected
      exact selected
    · exact nofun
  · rename_i w found
    split
    · exact .ok _
    · rename_i n given
      split
      · exact .ok _
      · refine .rejectNumbers trivial ?_
        rintro m member
        rcases List.mem_pair.mp member with rfl | rfl
        · exact pane m (by simp [given])
        · exact windows _ (List.mem_map_of_mem (Project.mem_of_window? found))

theorem count_eq_some {path : String} {value : Tree} {n : Int}
    (read : count path value = .ok (some n)) : value = .int n := by
  unfold count at read
  split at read
  · cases read
  · split at read
    · exact absurd read (reject_ne_ok _ _ _)
    · cases read
      rfl
  · exact absurd read (reject_ne_ok _ _ _)

/-- An index to start in is given as a number, or in digits that are not too many. -/
theorem selector_index {path : String} {value : Tree} {n : Int}
    (read : selector path value = .ok (some (.index n))) :
    value = .int n ∨ isWritable n = true := by
  unfold selector at read
  split at read
  · cases read
  · cases read
    exact .inl rfl
  · split at read
    · obtain ⟨m, digits, eq⟩ := bind_eq_ok.mp read
      cases eq
      exact .inr (isWritable_of_integer? (digitsInteger_eq_ok.mp digits))
    · cases read
  · exact absurd read (reject_ne_ok _ _ _)

theorem covers_selectorNumbers {allowed : Failure → Prop} {path : String} {value : Tree}
    {selected : Option Selector} (read : selector path value = .ok selected)
    (covers : Covers allowed value.integers) : Covers allowed (selectorNumbers selected) := by
  intro m member long
  rcases selected with _ | n | s
  · cases member
  · obtain rfl := List.mem_singleton.mp member
    rcases selector_index read with rfl | writable
    · exact covers m (List.mem_singleton_self m) long
    · rw [writable] at long
      cases long
  · cases member

section WindowIndexes
variable {t : Tree} {fields : ProjectField → Option Tree}
  (given : Given projectVocabulary "name" t fields)
include given

/-- A field that is read as something else than null stands in the document. -/
theorem Given.held_of_ne_null {f : ProjectField} {names : List String} {value : Tree}
    (own : projectVocabulary.names.filter (·.1 = f) = [(f, names)])
    (said : "name" ∉ names) (read : orNull fields f = value) (some : value ≠ .null) :
    ∃ name ∈ names, t.Holds name value := by
  cases found : fields f with
  | none =>
    rw [orNull, found] at read
    exact absurd read.symm some
  | some other =>
    rw [orNull, found, Option.getD_some] at read
    exact given.held own ⟨said, said⟩ (read ▸ found)

theorem windowBase_given {base : Option Int}
    (read : count "window_base_index" (orNull fields .windowBaseIndex) = .ok base) :
    base.getD 1 = 1 ∨ t.Holds "window_base_index" (.int (base.getD 1)) := by
  cases base with
  | none => exact .inl rfl
  | some m =>
    have some : Tree.int m ≠ .null := by simp
    obtain ⟨name, own, held⟩ := given.held_of_ne_null (f := .windowBaseIndex) rfl (by decide)
      (count_eq_some read) some
    obtain rfl := List.mem_singleton.mp own
    exact .inr held

/-- The indices of windows are counted from the base index, which stands in the document or
is 1. -/
theorem covers_windowIndexes {home : String} {paneBase : Int} {base : Option Int}
    {list : List Window}
    (baseRead : count "window_base_index" (orNull fields .windowBaseIndex) = .ok base)
    (listed : (windows home (base.getD 1) paneBase (orNull fields .windows)).result = .ok list) :
    Covers (Blamed t) (list.map Window.index) := by
  intro n member long
  obtain ⟨w, known, rfl⟩ := List.mem_map.mp member
  have first := windowBase_given given baseRead
  rcases windows_numbered listed known with index | ⟨entries, value, k, bound, index⟩
  · rw [index] at long
    rcases first with one | held
    · rw [one] at long
      exact absurd long (by decide)
    · exact Unguarded.integer (held.part.integers (by simp [Tree.integers]))
        (isOverlong_iff.mpr long)
  · have some : Tree.list entries ≠ .null := by simp
    obtain ⟨key, field, held⟩ := given.held_of_ne_null (f := .windows) rfl (by decide) value some
    rw [index] at long
    exact Unguarded.number first field held bound (isOverlong_iff.mpr long)

end WindowIndexes

/-- They stand in the document, or are counted from its base index. -/
theorem covers_startupNumbers {t : Tree} {fields : ProjectField → Option Tree}
    (given : Given projectVocabulary "name" t fields) {home : String} {paneBase : Int}
    {base pane : Option Int} {selected : Option Selector} {list : List Window}
    (baseRead : count "window_base_index" (orNull fields .windowBaseIndex) = .ok base)
    (selectedRead : selector "startup_window" (orNull fields .startupWindow) = .ok selected)
    (paneRead : count "startup_pane" (orNull fields .startupPane) = .ok pane)
    (listed : (windows home (base.getD 1) paneBase (orNull fields .windows)).result = .ok list) :
    Covers (Blamed t) (startupNumbers selected pane list) := by
  rw [startupNumbers, covers_append, covers_append]
  refine ⟨⟨covers_selectorNumbers selectedRead (given.covers .startupWindow), ?_⟩,
    covers_windowIndexes given baseRead listed⟩
  intro n member long
  obtain rfl := Option.mem_toList.mp member
  refine given.covers .startupPane n ?_ long
  rw [count_eq_some paneRead]
  exact List.mem_singleton_self n

/-- The fields of a project are all given in so many words. -/
theorem given_of_plainPairs {entries : List (Tree × Tree)} {path : String}
    {fields : ProjectField → Option Tree}
    (read : (readFields projectVocabulary path (plainPairs entries)).result = .ok fields) :
    Given projectVocabulary "name" (.mapping entries) fields := by
  exact given_of_origin (origin_of_plainPairs fun e known => ⟨entries, .here, known⟩) read

theorem projectOfFields_failsOnly {t : Tree} {fields : ProjectField → Option Tree}
    (given : Given projectVocabulary "name" t fields) (home : String) (wishes : Wishes) :
    FailsOnly (Blamed t) (projectOfFields home wishes fields).result := by
  have dir : ∀ v ∈ fields .workingDir, ∃ key ∈ ["working_dir", "root"], t.Holds key v :=
    fun v found => given.held rfl (by decide) found
  have startup : ∀ v, fields .startupWindow = some v → t.Holds "startup_window" v := by
    intro v found
    obtain ⟨name, own, held⟩ := given.held (f := .startupWindow) rfl (by decide) found
    obtain rfl := List.mem_singleton.mp own
    exact held
  have inner : ∀ v, fields .windows = some v → Part v t :=
    fun v found => given.part rfl (by decide) found
  simp only [projectOfFields, Noted.result_bind_eq, Noted.result_liftM]
  exact (count_failsOnly _ (given.covers _)).bind fun windowBase windowBaseRead =>
    (count_failsOnly _ (given.covers _)).bind fun _ _ =>
    (sessionName_failsOnly (given.covers _) _).bind fun _ _ =>
    (optionalText_failsOnly _ (given.covers _)).bind fun _ _ =>
    (optionalText_failsOnly _ (given.covers _)).bind fun _ _ =>
    (optionalText_failsOnly _ (given.covers _)).bind fun _ _ =>
    (optionalDirectory_failsOnly dir home _).bind fun _ _ =>
    (orNull_failsOnly (selector _) (.ok _) fun v found =>
      selector_failsOnly (startup v found) _).bind fun _ selected =>
    (count_failsOnly _ (given.covers _)).bind fun _ paneRead =>
    (commands_failsOnly _ (given.covers _)).bind fun _ _ =>
    (commands_failsOnly _ (given.covers _)).bind fun _ _ =>
    (commands_failsOnly _ (given.covers _)).bind fun _ _ =>
    (commands_failsOnly _ (given.covers _)).bind fun _ _ =>
    (commands_failsOnly _ (given.covers _)).bind fun _ _ =>
    (commands_failsOnly _ (given.covers _)).bind fun _ _ =>
    (commands_failsOnly _ (given.covers _)).bind fun _ _ =>
    (commands_failsOnly _ (given.covers _)).bind fun _ _ =>
    (commands_failsOnly _ (given.covers _)).bind fun _ _ =>
    (attachment_failsOnly given.covers _).bind fun _ _ =>
    (orNull_failsOnly (fun v => (windows home _ _ v).result) (.ok _) fun v found =>
      failsOnly_of_part (windows_failsOnly home _ _ v) (inner v found)).bind fun _ listed =>
    (checkStartup_failsOnly (covers_startupNumbers given windowBaseRead selected paneRead
      listed)).bind fun _ _ => .ok _

/-- Building a project fails with a problem or trips over something that stands in its document. -/
theorem build_failsOnly (home : String) (wishes : Wishes) (document : Tree) :
    FailsOnly (Blamed document) (build home wishes document).result := by
  unfold build
  split
  · exact .reject trivial rfl
  · simp only [Noted.result_bind_eq]
    rename_i entries
    have covers : ∀ pair ∈ plainPairs entries, Covers (Blamed (.mapping entries))
        pair.key.integers := fun pair member => covers_blamed
      (@origin_of_plainPairs _ "name" _ (fun e known => ⟨entries, .here, known⟩) pair member).key
    refine (readFields_failsOnly _ _ covers).bind fun fields read => ?_
    split
    · simp only [Noted.result_bind_eq]
      exact FailsOnly.bind (.reject trivial rfl) fun _ _ =>
        projectOfFields_failsOnly (given_of_plainPairs read) home wishes
    · exact projectOfFields_failsOnly (given_of_plainPairs read) home wishes
  · exact .reject trivial rfl

end SessionPlan.Document
