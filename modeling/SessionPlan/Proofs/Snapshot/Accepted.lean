import SessionPlan.Proofs.Failure
import SessionPlan.Proofs.Snapshot.Listed

/-! Which listings are read, and as what. Each line tells of a pane of the session, tells of
nothing, or has a flaw; the first flaw is reported with the number of its line, and without one the
panes go to the windows of their indexes. -/
namespace SessionPlan.Snapshot
open SessionPlan.Text

variable {session text : String} {line : Line}

/-! ### What a line says -/

/-- The line is what the text is cut into at its tabs. The name of the window takes up all that is
between the first two fields and the last four. -/
def IsCut (line : Line) (text : String) : Prop :=
  ∃ names, names ≠ [] ∧ line.name = join "\t" names ∧
    split text '\t' = line.session :: line.window ::
      (names ++ [line.layout, line.pane, line.path, line.command])

/-- The window that a line tells of, with the one pane. -/
def Line.live (line : Line) (window pane : Int) : LiveWindow where
  index := window
  name := said line.name
  layout := said line.layout
  panes := [{ index := pane, workingDir := said line.path, command := said line.command }]

/-- What a line tells of the session: a window with one pane, or nothing. -/
inductive Tells (session : String) : String → Option LiveWindow → Prop
  | blank {text : String} : isBlankText text = true → Tells session text none
  | other {text : String} {line : Line} : isBlankText text = false → IsCut line text →
      line.session ≠ session → Tells session text none
  | own {text : String} {line : Line} {window pane : Int} : isBlankText text = false →
      IsCut line text → line.session = session → integer? line.window = some window →
      integer? line.pane = some pane → Tells session text (some (line.live window pane))

/-- What is wrong with a line that cannot be read. The indexes of other sessions are not looked
at. -/
inductive Flawed (session : String) : String → Cause → Prop
  | fields {text : String} : isBlankText text = false →
      (split text '\t').length < fieldNames.length →
      Flawed session text (.listingFieldsMissing fieldNames.length (split text '\t').length)
  | window {text : String} {line : Line} : isBlankText text = false → IsCut line text →
      line.session = session → integer? line.window = none →
      Flawed session text (.listingIndex "window index" line.window)
  | pane {text : String} {line : Line} {window : Int} : isBlankText text = false →
      IsCut line text → line.session = session → integer? line.window = some window →
      integer? line.pane = none → Flawed session text (.listingIndex "pane index" line.pane)

/-- A line that can be read: it is blank or has all its fields, and if it is one of the session, its
indexes are integers. -/
structure IsRegular (session text : String) : Prop where
  fields : isBlankText text = false → fieldNames.length ≤ (split text '\t').length
  indexes : isBlankText text = false → ∀ line, IsCut line text → line.session = session →
    (integer? line.window).isSome = true ∧ (integer? line.pane).isSome = true

theorem isCut_iff : IsCut line text ↔ Line.ofFields? (split text '\t') = some line := by
  constructor
  · rintro ⟨names, nonempty, named, cut⟩
    rw [cut, Line.ofFields?_append _ _ nonempty, ← named]
  · intro taken
    unfold Line.ofFields? at taken
    split at taken
    · rename_i own window rest cut
      split at taken
      · rename_i command path pane layout last more order
        cases taken
        refine ⟨(last :: more).reverse, by simp, rfl, ?_⟩
        have back : rest = (command :: path :: pane :: layout :: last :: more).reverse := by
          rw [← order, List.reverse_reverse]
        rw [cut, back]
        simp
      · cases taken
    · cases taken

theorem IsCut.le (cut : IsCut line text) : fieldNames.length ≤ (split text '\t').length := by
  obtain ⟨names, nonempty, -, fields⟩ := cut
  have some_name := List.length_pos_of_ne_nil nonempty
  rw [fields]
  simp only [fieldNames, List.length_cons, List.length_append, List.length_nil]
  omega

theorem IsCut.head? (cut : IsCut line text) : (split text '\t').head? = some line.session := by
  obtain ⟨names, -, -, fields⟩ := cut
  rw [fields, List.head?_cons]

theorem IsCut.unique {other : Line} (cut : IsCut line text) (again : IsCut other text) :
    line = other := Option.some.inj ((isCut_iff.mp cut).symm.trans (isCut_iff.mp again))

/-- A line is read, or else something is wrong with it. -/
theorem tells_or_flawed (session text : String) :
    (∃ told, Tells session text told) ∨ ∃ cause, Flawed session text cause := by
  cases blank : isBlankText text with
  | true => exact .inl ⟨_, .blank blank⟩
  | false =>
    by_cases enough : fieldNames.length ≤ (split text '\t').length
    · obtain ⟨line, taken, -⟩ := Line.ofFields?_of_le enough
      have cut : IsCut line text := isCut_iff.mpr taken
      by_cases own : line.session = session
      · cases window : integer? line.window with
        | none => exact .inr ⟨_, .window blank cut own window⟩
        | some n =>
          cases pane : integer? line.pane with
          | none => exact .inr ⟨_, .pane blank cut own window pane⟩
          | some m => exact .inl ⟨_, .own blank cut own window pane⟩
      · exact .inl ⟨_, .other blank cut own⟩
    · exact .inr ⟨_, .fields blank (Nat.lt_of_not_le enough)⟩

theorem Flawed.not_isRegular {cause : Cause} (flawed : Flawed session text cause) :
    ¬IsRegular session text := by
  intro regular
  cases flawed with
  | fields solid few => exact absurd (regular.fields solid) (Nat.not_le.mpr few)
  | window solid cut own none =>
    have whole := (regular.indexes solid _ cut own).1
    rw [none] at whole
    cases whole
  | pane solid cut own window none =>
    have whole := (regular.indexes solid _ cut own).2
    rw [none] at whole
    cases whole

theorem IsRegular.tells (regular : IsRegular session text) : ∃ told, Tells session text told :=
  (tells_or_flawed session text).resolve_right fun ⟨_, flawed⟩ => flawed.not_isRegular regular

/-- A line without its fields, or without an integer where one is wanted, has the wrong shape. -/
theorem Flawed.kind {cause : Cause} (flawed : Flawed session text cause) (path : String) :
    (Problem.issue ⟨cause, path⟩).kind = .shape := by
  cases flawed <;> rfl

/-! ### All lines -/

section
variable (windows : List LiveWindow) (number : Nat)

end

/-- A window put together of the parts that are shown of it. -/
structure IsGathered (shown : List LiveWindow) (w : LiveWindow) : Prop where
  /-- The first part names it and says its layout. -/
  first : ∃ part, shown.find? (fun v => v.index == w.index) = some part ∧
    w.name = part.name ∧ w.layout = part.layout
  /-- It has the panes of its parts, in the order in which they are shown. -/
  panes : w.panes = (shown.filter fun v => v.index == w.index).flatMap (·.panes)

/-- All windows of which parts are shown. -/
structure Gathers (shown windows : List LiveWindow) : Prop where
  /-- They come in the order in which their indexes are first shown. -/
  indexes : windows.map LiveWindow.index = (shown.map LiveWindow.index).eraseDups
  each : ∀ w ∈ windows, IsGathered shown w
  /-- No pane is lost, and none is there twice. -/
  count : (windows.flatMap (·.panes)).length = (shown.flatMap (·.panes)).length

theorem map_index_addWindow {w : LiveWindow} {windows : List LiveWindow}
    (known : w.index ∈ windows.map LiveWindow.index) :
    (addWindow w windows).map LiveWindow.index = windows.map LiveWindow.index := by
  induction windows with
  | nil => cases known
  | cons first rest ih =>
    rw [addWindow]
    split
    · rfl
    · rename_i other
      have later := (List.mem_cons.mp known).resolve_left (Ne.symm other)
      rw [List.map_cons, List.map_cons, ih later]

theorem length_panes_addWindow (w : LiveWindow) (windows : List LiveWindow) :
    ((addWindow w windows).flatMap (·.panes)).length =
      (windows.flatMap (·.panes)).length + w.panes.length := by
  induction windows with
  | nil => simp [addWindow]
  | cons first rest ih =>
    rw [addWindow]
    split
    · simp only [List.flatMap_cons, List.length_append]
      omega
    · simp only [List.flatMap_cons, List.length_append, ih]
      omega

/-- A window in which something was put is one that was there, with more panes or as it was, or
else a new one. -/
theorem mem_addWindow {w v : LiveWindow} {windows : List LiveWindow}
    (distinct : (windows.map LiveWindow.index).Nodup) (member : v ∈ addWindow w windows) :
    (v ∈ windows ∧ v.index ≠ w.index) ∨
    (∃ old ∈ windows, old.index = w.index ∧ v = { old with panes := old.panes ++ w.panes }) ∨
    (v = w ∧ w.index ∉ windows.map LiveWindow.index) := by
  induction windows with
  | nil =>
    rw [addWindow, List.mem_singleton] at member
    exact .inr (.inr ⟨member, by simp⟩)
  | cons first rest ih =>
    rw [List.map_cons, List.nodup_cons] at distinct
    rw [addWindow] at member
    split at member
    · rename_i here
      rcases List.mem_cons.mp member with rfl | later
      · exact .inr (.inl ⟨first, List.mem_cons_self, here, rfl⟩)
      · refine .inl ⟨List.mem_cons_of_mem _ later, fun same => distinct.1 ?_⟩
        rw [here, ← same]
        exact List.mem_map_of_mem later
    · rename_i other
      rcases List.mem_cons.mp member with rfl | later
      · exact .inl ⟨List.mem_cons_self, other⟩
      · rcases ih distinct.2 later with ⟨known, apart⟩ | ⟨old, known, more⟩ | ⟨new, fresh⟩
        · exact .inl ⟨List.mem_cons_of_mem _ known, apart⟩
        · exact .inr (.inl ⟨old, List.mem_cons_of_mem _ known, more⟩)
        · refine .inr (.inr ⟨new, ?_⟩)
          rw [List.map_cons, List.mem_cons, not_or]
          exact ⟨Ne.symm other, fresh⟩

namespace IsGathered
variable {shown : List LiveWindow} {v w : LiveWindow}

theorem other (gathered : IsGathered shown v) (apart : v.index ≠ w.index) :
    IsGathered (shown ++ [w]) v := by
  obtain ⟨⟨part, found, name, layout⟩, panes⟩ := gathered
  refine ⟨⟨part, ?_, name, layout⟩, ?_⟩
  · rw [List.find?_append, found, Option.some_or]
  · rw [List.filter_append, List.flatMap_append, ← panes]
    simp [Ne.symm apart]

theorem more (gathered : IsGathered shown v) (here : v.index = w.index) :
    IsGathered (shown ++ [w]) { v with panes := v.panes ++ w.panes } := by
  obtain ⟨⟨part, found, name, layout⟩, panes⟩ := gathered
  refine ⟨⟨part, ?_, name, layout⟩, ?_⟩
  · rw [List.find?_append, found, Option.some_or]
  · rw [List.filter_append, List.flatMap_append, ← panes]
    simp [here]

theorem new (fresh : w.index ∉ shown.map LiveWindow.index) : IsGathered (shown ++ [w]) w := by
  have absent : ∀ v ∈ shown, ¬(v.index == w.index) = true := by simpa using fresh
  refine ⟨⟨w, ?_, rfl, rfl⟩, ?_⟩
  · rw [List.find?_append, List.find?_eq_none.mpr absent]
    simp
  · rw [List.filter_append, List.filter_eq_nil_iff.mpr absent]
    simp

end IsGathered

namespace Gathers
variable {shown windows : List LiveWindow}

theorem nil : Gathers [] [] := ⟨rfl, by simp, rfl⟩

theorem distinct (gathers : Gathers shown windows) : (windows.map LiveWindow.index).Nodup := by
  rw [gathers.indexes]
  exact nodup_eraseDups _

theorem mem_indexes_iff (gathers : Gathers shown windows) {i : Int} :
    i ∈ windows.map LiveWindow.index ↔ i ∈ shown.map LiveWindow.index := by
  rw [gathers.indexes, List.mem_eraseDups]

/-- One more part is shown. -/
theorem add (gathers : Gathers shown windows) (w : LiveWindow) :
    Gathers (shown ++ [w]) (addWindow w windows) where
  indexes := by
    rw [List.map_append, List.map_singleton]
    by_cases known : w.index ∈ windows.map LiveWindow.index
    · rw [map_index_addWindow known, gathers.indexes,
        eraseDups_concat_of_mem (gathers.mem_indexes_iff.mp known)]
    · have new := mt gathers.mem_indexes_iff.mpr known
      rw [addWindow_absent known, eraseDups_concat_of_not_mem new, List.map_append,
        gathers.indexes, List.map_singleton]
  each v member := by
    rcases mem_addWindow gathers.distinct member with
      ⟨known, apart⟩ | ⟨old, known, here, rfl⟩ | ⟨rfl, fresh⟩
    · exact (gathers.each v known).other apart
    · exact (gathers.each old known).more here
    · exact .new (mt gathers.mem_indexes_iff.mpr fresh)
  count := by
    rw [length_panes_addWindow, gathers.count, List.flatMap_append, List.length_append,
      List.flatMap_singleton]

theorem foldl (gathers : Gathers shown windows) (parts : List LiveWindow) :
    Gathers (shown ++ parts)
      (parts.foldl (fun windows w => addWindow w windows) windows) := by
  induction parts generalizing shown windows with
  | nil => rwa [List.append_nil]
  | cons part rest ih =>
    have further := ih (gathers.add part)
    rwa [List.append_assoc] at further

end Gathers

/-! ### Listings -/

end SessionPlan.Snapshot
