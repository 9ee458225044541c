import SessionPlan.Proofs.Document.RoundTrip
import SessionPlan.Proofs.Plan.LiveOrder
import SessionPlan.Plan

/-! The groups of a plan, laid out from the project alone: which groups there are, in which order,
for which window and pane, and what each of them runs. -/
namespace SessionPlan
namespace Window.WellFormed
variable {home : String} {number base : Int} {w : Window}

theorem hasLayout_eq (formed : w.WellFormed home number base) :
    w.hasLayout = w.layout.isSome := by
  cases found : w.layout with
  | none => simp [hasLayout, found]
  | some s => simp [hasLayout, found, (formed.layout s found).1]

/-- Panes that a layout will arrange are split off without a direction. -/
theorem splitDirection_eq (formed : w.WellFormed home number base) (pane : Pane) :
    w.splitDirection pane =
      if w.layout.isSome then none else some (pane.split.getD .horizontal) := by
  rw [splitDirection, formed.hasLayout_eq]

/-- A size is given for every other pane. -/
theorem splitSize_eq (formed : w.WellFormed home number base) {pane : Pane} {j : Nat}
    (declared : w.panes[j]? = some pane) :
    w.splitSize pane = if w.layout.isSome then none else some (pane.splitSize.getD "50%") := by
  have given : orNonempty pane.splitSize (some "50%") = some (pane.splitSize.getD "50%") := by
    cases found : pane.splitSize with
    | none => rfl
    | some s =>
      have nonempty : s ≠ "" := by
        rintro rfl
        exact absurd ((formed.panes j pane declared).splitSize _ found).digits (by decide)
      simp [orNonempty, nonempty]
  rw [splitSize, formed.hasLayout_eq, given]

end Window.WellFormed

def firstNonempty (texts : List (Option String)) : Option String :=
  (texts.filterMap id).find? (· ≠ "")

theorem firstNonempty_cons (s : Option String) (texts : List (Option String)) :
    firstNonempty (s :: texts) = orNonempty s (firstNonempty texts) := by
  cases s with
  | none => rfl
  | some text =>
    by_cases empty : text = "" <;> simp [firstNonempty, orNonempty, empty]

theorem orNonempty_orNonempty (s alternative : Option String) :
    orNonempty (orNonempty s alternative) none = orNonempty s (orNonempty alternative none) := by
  cases s with
  | none => rfl
  | some text =>
    by_cases empty : text = "" <;> simp [orNonempty, empty]

namespace Planner

/-! ### What a project asks for -/

/-- Where commands for a window are sent. -/
def windowAt (pl : Planner) (w : Window) : WindowTarget := ⟨pl.session, w.index⟩

def paneAt (pl : Planner) (w : Window) (live : Int) : PaneTarget := ⟨pl.windowAt w, live⟩

/-- The word by which the multiplexer finds a window. -/
def windowWord (pl : Planner) (w : Window) : String := pl.session ++ ":" ++ w.index.repr

def paneWord (pl : Planner) (w : Window) (live : Int) : String :=
  pl.session ++ ":" ++ w.index.repr ++ "." ++ live.repr

/-- What a line of the session comes to. The others have further placeholders, which are filled in
after these. -/
def sessionLine (pl : Planner) (line : String) : String :=
  Text.replace (Text.replace line "__TMUX__" pl.tmux) "__SESSION__" pl.session

def windowLine (pl : Planner) (w : Window) (line : String) : String :=
  Text.replace (pl.sessionLine line) "__WINDOW__" (pl.windowWord w)

def paneLine (pl : Planner) (w : Window) (live : Int) (line : String) : String :=
  Text.replace (pl.windowLine w line) "__PANE__" (pl.paneWord w live)

/-- Live index of pane `j` once all panes of the window are there. -/
def live (pl : Planner) (w : Window) (j : Nat) : Int := pl.project.paneBaseIndex + w.position j

/-- The directory that a pane starts in: its own, else the window's, else the project's. An empty
one is none. -/
def directory (pl : Planner) (w : Window) (pane : Pane) : Option String :=
  firstNonempty [pane.workingDir, w.workingDir, pl.project.workingDir]

def titling (target : PaneTarget) (pane : Pane) : List Command :=
  pane.name.toList.map (.titlePane target)

/-- What makes a window with its first pane. -/
def opening (pl : Planner) (w : Window) (pane : Pane) (first : Bool) : Group where
  role := if first then .create else .split
  commands :=
    (if first
      then [.newSession pl.session w.name (pl.directory w pane),
        .setBaseIndex pl.session pl.project.windowBaseIndex, .renumberWindows pl.session]
      else [.newWindow (pl.windowAt w) w.name (pl.directory w pane)]) ++
    .setPaneBaseIndex (pl.windowAt w) pl.project.paneBaseIndex ::
      titling (pl.paneAt w pl.project.paneBaseIndex) pane
  window := some w.index
  pane := some pl.project.paneBaseIndex

/-- What makes pane `j`, right after its source. -/
def splitting (pl : Planner) (w : Window) (pane : Pane) (j : Nat) : Group where
  role := .split
  commands :=
    .splitWindow (pl.paneAt w (pl.project.paneBaseIndex + w.splitPosition j))
        (w.splitDirection pane) (w.splitSize pane) (pl.directory w pane) ::
      titling (pl.paneAt w (pl.project.paneBaseIndex + w.splitPosition j + 1)) pane
  window := some w.index
  pane := some pane.index

/-- A group that is there only where it is called for. -/
def only (called : Bool) (g : Group) : List Group := if called then [g] else []

/-- Hooks and typed lines of pane `j`. What the project declares for every pane comes first, then
what the window does, then the pane's own. -/
def paneSchedule (pl : Planner) (w : Window) (pane : Pane) (j : Nat) : List Group :=
  let p := pl.project
  let onCreate := p.onPaneCreate ++ w.onPaneCreate ++ pane.onCreate
  let typed := p.paneCommands ++ w.paneCommands ++ pane.commands
  let postCreate := p.postPaneCreate ++ w.postPaneCreate ++ pane.postCreate
  let target := pl.paneAt w (pl.live w j)
  let line := pl.paneLine w (pl.live w j)
  only (!onCreate.isEmpty)
      ⟨.onPaneCreate, onCreate.map fun c => .runShell (line c), some w.index, some pane.index⟩ ++
    only (!typed.isEmpty || pane.clear)
      ⟨.paneCommands, (typed.map fun c => .typeLine target (line c)) ++
        (if pane.clear then [.clearScreen target] else []), some w.index, some pane.index⟩ ++
    only (!postCreate.isEmpty)
      ⟨.postPaneCreate, postCreate.map fun c => .runShell (line c), some w.index,
        some pane.index⟩

/-- All groups of a window with panes. -/
def windowSchedule (pl : Planner) (w : Window) (first : Bool) : List Group :=
  (w.panes.head?.toList.map fun pane => pl.opening w pane first) ++
    (w.panes.tail.zipIdx 1).map (fun (pane, j) => pl.splitting w pane j) ++
    (w.layout.toList.map fun layout =>
      ⟨.layout, [.selectLayout (pl.windowAt w) layout], some w.index, none⟩) ++
    only (!w.onCreate.isEmpty)
      ⟨.onCreate, w.onCreate.map fun c => .runShell (pl.windowLine w c), some w.index, none⟩ ++
    w.panes.zipIdx.flatMap (fun (pane, j) => pl.paneSchedule w pane j) ++
    only (!w.postCreate.isEmpty)
      ⟨.postCreate, w.postCreate.map fun c => .runShell (pl.windowLine w c), some w.index, none⟩

/-- Where the pane that the session shows first is declared in its window. -/
def startupPosition (p : Project) : Nat :=
  match p.startupPane with
  | some n => (n - p.paneBaseIndex).toNat
  | none => 0

def selecting (pl : Planner) (startup : Window) : Group where
  role := .select
  commands := [.selectWindow (pl.windowAt startup),
    .selectPane (pl.paneAt startup (pl.live startup (startupPosition pl.project)))]
  window := some startup.index
  pane := some (pl.project.startupPane.getD pl.project.paneBaseIndex)

/-- All groups of a plan, given the window that the session shows first. -/
def schedule (pl : Planner) (startup : Window) : List Group :=
  let p := pl.project
  p.windows.zipIdx.flatMap (fun (w, i) => pl.windowSchedule w (i == 0)) ++
    only (!p.postCreate.isEmpty)
      ⟨.postCreate, p.postCreate.map fun c => .runShell (pl.sessionLine c), none, none⟩ ++
    [pl.selecting startup] ++
    only p.attach ⟨.attach, [.attach pl.session], none, none⟩

/-! ### What the planner writes -/

/-- Integers that come into the commands that open a window. -/
def openingIntegers (pl : Planner) (w : Window) (first : Bool) : List Int :=
  w.index :: pl.project.paneBaseIndex :: if first then [pl.project.windowBaseIndex] else []

/-- Those that come into the commands that split pane `j` off. -/
def splittingIntegers (pl : Planner) (w : Window) (pane : Pane) (j : Nat) : List Int :=
  (pl.project.paneBaseIndex + w.splitPosition j) ::
    if pane.name.isSome then [pl.project.paneBaseIndex + w.splitPosition j + 1] else []

/-- All that come into the commands of a window. -/
def windowIntegers (pl : Planner) (w : Window) (first : Bool) : List Int :=
  pl.openingIntegers w first ++
    ((w.panes.tail.zipIdx 1).flatMap (fun (pane, j) => pl.splittingIntegers w pane j) ++
      (List.range w.panes.length).map (pl.live w))

/-! ### The planner keeps to the schedule -/

theorem group_eq_only (role : Role) (commands : List Command) (window pane : Option Int) :
    group role commands window pane = only (!commands.isEmpty) ⟨role, commands, window, pane⟩ := by
  cases commands <;> rfl

/-- Overriding level by level leaves the first directory that is not empty. -/
theorem resolve_directory (pl : Planner) (w : Window) (pane : Pane) :
    orNonempty (pl.project.resolve w pane).workingDir none = pl.directory w pane := by
  simp only [directory, firstNonempty_cons, Project.resolve, Project.windowDir,
    orNonempty_orNonempty]
  rfl

theorem openWindow_eq {pl : Planner} {w : Window} (first : Bool) (h : w.panes ≠ []) :
    pl.openWindow w first = afterWriting (pl.openingIntegers w first)
      (w.panes.head?.toList.map fun pane => pl.opening w pane first) := by
  cases panes : w.panes with
  | nil => exact absurd panes h
  | cons pane further =>
    simp only [openWindow, panes, resolve_directory]
    cases first <;> rfl

theorem splitGroup_eq {pl : Planner} {w : Window} {pane : Pane} {j : Nat}
    (h : w.panes[j]? = some pane) :
    pl.splitGroup w (w.splitAt pl.project.paneBaseIndex pane j) =
      afterWriting (pl.splittingIntegers w pane j) [pl.splitting w pane j] := by
  simp only [splitGroup, Window.splitAt, h, resolve_directory]
  rfl

theorem further_declared {w : Window} {pane : Pane} {j : Nat}
    (h : (pane, j) ∈ w.panes.tail.zipIdx 1) : 0 < j ∧ w.panes[j]? = some pane := by
  obtain ⟨pos, found⟩ := List.mk_mem_zipIdx_iff_le_and_getElem?_sub.mp h
  rw [List.getElem?_tail, Nat.sub_add_cancel pos] at found
  exact ⟨pos, found⟩

theorem splitGroups_eq (pl : Planner) (w : Window) :
    (w.geometry pl.project.paneBaseIndex).splits.mapM (pl.splitGroup w) =
      afterWriting ((w.panes.tail.zipIdx 1).flatMap fun (pane, j) => pl.splittingIntegers w pane j)
        ((w.panes.tail.zipIdx 1).map fun (pane, j) => [pl.splitting w pane j]) := by
  rw [Window.geometry, List.mapM_map]
  apply mapM_afterWriting
  rintro ⟨pane, j⟩ member
  exact splitGroup_eq (further_declared member).2

theorem text_windowAt (pl : Planner) (w : Window) : (pl.windowAt w).text = pl.windowWord w := by
  simp only [windowAt, WindowTarget.text, windowWord, Text.ofInt_eq_repr]

theorem text_paneAt (pl : Planner) (w : Window) (live : Int) :
    (pl.paneAt w live).text = pl.paneWord w live := by
  simp only [paneAt, PaneTarget.text, text_windowAt, paneWord, windowWord, Text.ofInt_eq_repr]

theorem fill_window (pl : Planner) (w : Window) (line : String) :
    (pl.scope (some w) none).fill line = pl.windowLine w line := by
  rw [windowLine, ← text_windowAt]
  rfl

theorem fill_pane (pl : Planner) (w : Window) (live : Int) (line : String) :
    (pl.scope (some w) (some (pl.paneTarget w live))).fill line = pl.paneLine w live line := by
  rw [paneLine, ← text_paneAt, windowLine, ← text_windowAt]
  rfl

theorem paneGroups_eq (pl : Planner) (w : Window) (pane : Pane) (j : Nat) :
    pl.paneGroups w pane (pl.live w j) = pl.paneSchedule w pane j := by
  have typing (typed : List Command) (target : PaneTarget) :
      (!(typed ++ if pane.clear then [Command.clearScreen target] else []).isEmpty) =
        (!typed.isEmpty || pane.clear) := by
    cases typed <;> cases pane.clear <;> rfl
  simp only [paneGroups, group_eq_only, hooks, fill_pane, typing, List.isEmpty_map]
  rfl

theorem allPaneGroups_eq (pl : Planner) (w : Window) {rest : List Pane} {n : Nat} :
    pl.allPaneGroups w rest ((List.range' n rest.length).map (pl.live w)) =
      afterWriting ((List.range' n rest.length).map (pl.live w))
        ((rest.zipIdx n).flatMap fun (pane, j) => pl.paneSchedule w pane j) := by
  induction rest generalizing n with
  | nil => rfl
  | cons pane rest ih =>
    rw [List.length_cons, List.range'_succ, List.map_cons, allPaneGroups, ih, paneGroups_eq]
    exact ensureWritable_bind afterWriting_map

theorem windowGroups_eq {pl : Planner} {w : Window} (first : Bool) (ne_nil : w.panes ≠ [])
    (layout : ∀ s ∈ w.layout, s ≠ "") :
    pl.windowGroups w (w.geometry pl.project.paneBaseIndex) first =
      afterWriting (pl.windowIntegers w first) (pl.windowSchedule w first) := by
  have panes : pl.allPaneGroups w w.panes
      ((List.range' 0 w.panes.length).map (pl.live w)) = _ := allPaneGroups_eq pl w
  rw [← List.range_eq_range'] at panes
  have arranged : pl.layoutGroup w (w.geometry pl.project.paneBaseIndex) =
      w.layout.toList.map fun layout =>
        ⟨.layout, [.selectLayout (pl.windowAt w) layout], some w.index, none⟩ := by
    cases found : w.layout with
    | none => simp [layoutGroup, Window.geometry, found, orNonempty, group]
    | some s =>
      simp [layoutGroup, Window.geometry, found, orNonempty, layout s found, group, target,
        windowAt]
  have singles : ((w.panes.tail.zipIdx 1).map fun (pane, j) => [pl.splitting w pane j]).flatten =
      (w.panes.tail.zipIdx 1).map fun (pane, j) => pl.splitting w pane j := by
    rw [← List.flatMap_def]
    exact List.map_eq_flatMap.symm
  rw [windowGroups, openWindow_eq first ne_nil]
  refine afterWriting_bind ?_
  rw [splitGroups_eq]
  refine afterWriting_bind ?_
  rw [show (w.geometry pl.project.paneBaseIndex).finalIndices =
    (List.range w.panes.length).map (pl.live w) from rfl, panes, arranged, singles]
  refine afterWriting_map.trans ?_
  simp only [group_eq_only, hooks, fill_window, List.isEmpty_map]
  rfl

/-- They are the indices of the window and of its panes. -/
theorem mem_windowIntegers {pl : Planner} {w : Window} {first : Bool} (ne_nil : w.panes ≠ [])
    (sourced : w.Sourced) (start : first = true → w.index = pl.project.windowBaseIndex) {n : Int} :
    n ∈ pl.windowIntegers w first ↔
      n = w.index ∨ ∃ k < w.panes.length, n = pl.project.paneBaseIndex + (k : Nat) := by
  have some_pane := List.length_pos_of_ne_nil ne_nil
  constructor
  · intro written
    rcases List.mem_append.mp written with opened | later
    · -- the base index of the windows is the index of the first of them
      cases first with
      | false =>
        simp only [openingIntegers, Bool.false_eq_true, if_false, List.mem_cons,
          List.not_mem_nil, or_false] at opened
        exact opened.imp_right fun base => ⟨0, some_pane, by simpa using base⟩
      | true =>
        simp only [openingIntegers, if_true, ← start rfl, List.mem_cons, List.not_mem_nil,
          or_false] at opened
        rcases opened with here | base | here
        · exact .inl here
        · exact .inr ⟨0, some_pane, by simpa using base⟩
        · exact .inl here
    rcases List.mem_append.mp later with split | shown
    · obtain ⟨⟨pane, j⟩, member, split⟩ := List.mem_flatMap.mp split
      obtain ⟨further, declared⟩ := further_declared member
      obtain ⟨inside, -⟩ := List.getElem?_eq_some_iff.mp declared
      have before := Window.splitPosition_lt (Window.SourcedTo.mono sourced (by omega)) further
      rcases List.mem_cons.mp split with rfl | title
      · exact .inr ⟨_, before.trans inside, rfl⟩
      · obtain rfl : n = pl.project.paneBaseIndex + w.splitPosition j + 1 := by
          split at title
          · exact List.mem_singleton.mp title
          · exact absurd title List.not_mem_nil
        exact .inr ⟨w.splitPosition j + 1, by omega, by omega⟩
    · obtain ⟨j, declared, rfl⟩ := List.mem_map.mp shown
      exact .inr ⟨_, Window.position_lt sourced (List.mem_range.mp declared), rfl⟩
  · rintro (rfl | ⟨k, inside, rfl⟩)
    · exact List.mem_append_left _ List.mem_cons_self
    · obtain ⟨j, declared, rfl⟩ := Window.exists_position sourced inside
      refine List.mem_append_right _ (List.mem_append_right _ ?_)
      exact List.mem_map.mpr ⟨j, List.mem_range.mpr declared, rfl⟩

/-- A key is looked up if all its entries have the same value. -/
theorem lookup_eq_some {entries : List (Int × Geometry)} {index : Int} {g : Geometry}
    (member : (index, g) ∈ entries) (unique : ∀ other, (index, other) ∈ entries → other = g) :
    entries.lookup index = some g := by
  have present : (entries.lookup index).isSome :=
    List.lookup_isSome_iff.mpr ⟨(index, g), member, by simp⟩
  obtain ⟨other, found⟩ := Option.isSome_iff_exists.mp present
  obtain ⟨before, after, rfl, -⟩ := List.lookup_eq_some_iff.mp found
  rw [found, unique other (by simp)]

end Planner

namespace Project

theorem geometriesFrom_eq_ok {base : Int} {position : Nat} {list : List Window}
    {geometries : List (Int × Geometry)} (counted : ∀ w ∈ list, w.Counted) :
    geometriesFrom base position list = .ok geometries ↔
      (∀ w ∈ list, w.panes ≠ [] ∧ w.Sourced) ∧
        geometries = list.map fun w => (w.index, w.geometry base) := by
  induction list generalizing position geometries with
  | nil => simp [geometriesFrom, eq_comm]
  | cons w rest ih =>
    have later (gs : List (Int × Geometry)) :
        geometriesFrom base (position + 1) rest = .ok gs ↔ _ :=
      ih fun v member => counted v (List.mem_cons_of_mem _ member)
    simp only [geometriesFrom, bind_eq_ok, pure_eq_ok,
      Window.ofWindow_eq_ok (counted w List.mem_cons_self), later, List.forall_mem_cons,
      List.map_cons]
    constructor
    · rintro ⟨g, ⟨ne_nil, sourced, rfl⟩, gs, ⟨others, rfl⟩, rfl⟩
      exact ⟨⟨⟨ne_nil, sourced⟩, others⟩, rfl⟩
    · rintro ⟨⟨⟨ne_nil, sourced⟩, others⟩, rfl⟩
      exact ⟨_, ⟨ne_nil, sourced, rfl⟩, _, ⟨others, rfl⟩, rfl⟩

/-- Windows are told apart by their index. -/
theorem WellFormed.index_injective {home : String} {p : Project} (formed : p.WellFormed home) :
    ∀ v ∈ p.windows, ∀ w ∈ p.windows, v.index = w.index → v = w := by
  intro v vMember w wMember same
  obtain ⟨i, vFound⟩ := List.mem_iff_getElem?.mp vMember
  obtain ⟨k, wFound⟩ := List.mem_iff_getElem?.mp wMember
  have vIndex := (formed.windows i v vFound).index
  have wIndex := (formed.windows k w wFound).index
  obtain rfl : i = k := by omega
  rw [vFound] at wFound
  exact Option.some.inj wFound

theorem geometryOf?_eq {home : String} {p : Project} {w : Window} (formed : p.WellFormed home)
    (member : w ∈ p.windows) :
    Planner.geometryOf? (p.windows.map fun v => (v.index, v.geometry p.paneBaseIndex)) w.index =
      some (w.geometry p.paneBaseIndex) := by
  apply Planner.lookup_eq_some
  · exact List.mem_reverse.mpr (List.mem_map.mpr ⟨w, member, rfl⟩)
  · intro other known
    obtain ⟨v, vMember, eq⟩ := List.mem_map.mp (List.mem_reverse.mp known)
    obtain ⟨same, rfl⟩ := Prod.mk.inj eq
    rw [formed.index_injective v vMember w member same]

theorem windowsGroups_eq {pl : Planner} {geometries : List (Int × Geometry)} {list : List Window}
    {i : Nat} (known : ∀ w ∈ list, Planner.geometryOf? geometries w.index =
      some (w.geometry pl.project.paneBaseIndex))
    (ne_nil : ∀ w ∈ list, w.panes ≠ []) (layout : ∀ w ∈ list, ∀ s ∈ w.layout, s ≠ "") :
    windowsGroups pl geometries (i == 0) list =
      afterWriting ((list.zipIdx i).flatMap fun (w, i) => pl.windowIntegers w (i == 0))
        ((list.zipIdx i).flatMap fun (w, i) => pl.windowSchedule w (i == 0)) := by
  induction list generalizing i with
  | nil => rfl
  | cons w rest ih =>
    have later := ih (i := i + 1) (fun v member => known v (List.mem_cons_of_mem _ member))
      (fun v member => ne_nil v (List.mem_cons_of_mem _ member))
      fun v member => layout v (List.mem_cons_of_mem _ member)
    rw [windowsGroups, known w List.mem_cons_self]
    simp only [Planner.windowGroups_eq (i == 0) (ne_nil w List.mem_cons_self)
      (layout w List.mem_cons_self)]
    rw [show (i + 1 == 0) = false from rfl] at later
    rw [later]
    exact afterWriting_bind afterWriting_map

theorem itemAt?_ofNat {α : Type} (items : List α) (n : Nat) : itemAt? items n = items[n]? := by
  have count : ¬(n : Int) < 0 := by omega
  by_cases inside : n < items.length
  · simp [itemAt?, position?, count, inside]
  · simp [itemAt?, position?, count, inside]

/-- The startup selection is a pane of the window that is selected. -/
theorem WellFormed.startupPane_declared {home : String} {p : Project} (formed : p.WellFormed home)
    {startup : Window} (selected : p.window? p.startupWindow = some startup) :
    (∀ n ∈ p.startupPane, n - p.paneBaseIndex = (Planner.startupPosition p : Int)) ∧
    ∃ pane, startup.panes[Planner.startupPosition p]? = some pane ∧
      pane.index = p.startupPane.getD p.paneBaseIndex := by
  obtain ⟨i, found⟩ := List.mem_iff_getElem?.mp (mem_of_window? selected)
  have window := formed.windows i startup found
  obtain ⟨w, again, inside⟩ := formed.startup
  obtain rfl : w = startup := Option.some.inj (again.symm.trans selected)
  have declared {k : Nat} (bound : k < w.panes.length) :
      ∃ pane, w.panes[k]? = some pane ∧ pane.index = p.paneBaseIndex + k :=
    ⟨_, List.getElem?_eq_getElem bound, (window.panes k _ (List.getElem?_eq_getElem bound)).index⟩
  cases given : p.startupPane with
  | none =>
    obtain ⟨pane, at_first, index⟩ := declared (List.length_pos_of_ne_nil window.panes_ne_nil)
    simp only [Planner.startupPosition, given]
    exact ⟨by simp, pane, at_first, by simpa using index⟩
  | some n =>
    obtain ⟨low, high⟩ := inside n given
    obtain ⟨pane, at_place, index⟩ := declared (k := (n - p.paneBaseIndex).toNat) (by omega)
    simp only [Planner.startupPosition, given]
    exact ⟨by rintro _ ⟨⟩; omega, pane, at_place, by rw [index, Option.getD_some]; omega⟩

/-- The place of the selection is the same, counted by the planner. -/
theorem WellFormed.startupPlace_eq {home : String} {p : Project} (formed : p.WellFormed home) :
    Planner.startupPlace p = (Planner.startupPosition p : Int) := by
  obtain ⟨startup, selected, -⟩ := formed.startup
  obtain ⟨place, -⟩ := formed.startupPane_declared selected
  cases given : p.startupPane with
  | none => simp [Planner.startupPlace, Planner.startupPosition, given]
  | some n =>
    rw [← place n given, Planner.startupPlace, given]

theorem startupGroup_eq {home : String} {pl : Planner} (formed : pl.project.WellFormed home)
    {startup : Window} (selected : pl.project.window? pl.project.startupWindow = some startup) :
    pl.startupGroup (pl.project.windows.map fun w =>
      (w.index, w.geometry pl.project.paneBaseIndex)) =
        afterWriting [pl.live startup (Planner.startupPosition pl.project)]
          [pl.selecting startup] := by
  obtain ⟨-, pane, declared, index⟩ := formed.startupPane_declared selected
  obtain ⟨bound, -⟩ := List.getElem?_eq_some_iff.mp declared
  have pane_item := itemAt?_ofNat startup.panes (Planner.startupPosition pl.project)
  have live_item := itemAt?_ofNat (startup.geometry pl.project.paneBaseIndex).finalIndices
    (Planner.startupPosition pl.project)
  have live : (startup.geometry pl.project.paneBaseIndex).finalIndices[
      Planner.startupPosition pl.project]? =
        some (pl.live startup (Planner.startupPosition pl.project)) := by
    simp [Window.geometry, Planner.live, bound]
  rw [declared] at pane_item
  rw [live] at live_item
  simp only [Planner.startupGroup, selected, geometryOf?_eq formed (mem_of_window? selected),
    formed.startupPlace_eq, live_item, pane_item]
  rw [Planner.selecting, ← index]
  rfl

theorem WellFormed.counted {home : String} {p : Project} (formed : p.WellFormed home) :
    ∀ w ∈ p.windows, w.Counted := by
  intro w member pane declared
  obtain ⟨i, found⟩ := List.mem_iff_getElem?.mp member
  obtain ⟨j, place⟩ := List.mem_iff_getElem?.mp declared
  exact ((formed.windows i w found).panes j pane place).splitFrom

theorem WellFormed.window {home : String} {p : Project} (formed : p.WellFormed home) {w : Window}
    (member : w ∈ p.windows) : ∃ number, w.WellFormed home number p.paneBaseIndex := by
  obtain ⟨i, found⟩ := List.mem_iff_getElem?.mp member
  exact ⟨_, formed.windows i w found⟩

theorem WellFormed.panes_ne_nil {home : String} {p : Project} (formed : p.WellFormed home) :
    ∀ w ∈ p.windows, w.panes ≠ [] := by
  intro w member
  obtain ⟨number, window⟩ := formed.window member
  exact window.panes_ne_nil

/-- The index of every window and of every pane. -/
def indexes (p : Project) : List Int :=
  p.windows.flatMap fun w => w.index :: w.panes.map Pane.index

theorem WellFormed.mem_indexes {home : String} {p : Project} (formed : p.WellFormed home) {n : Int} :
    n ∈ p.indexes ↔ ∃ w ∈ p.windows,
      n = w.index ∨ ∃ k < w.panes.length, n = p.paneBaseIndex + (k : Nat) := by
  rw [indexes, List.mem_flatMap]
  refine exists_congr fun w => and_congr_right fun member => ?_
  obtain ⟨number, window⟩ := formed.window member
  rw [List.mem_cons, List.mem_map]
  refine or_congr_right ?_
  constructor
  · rintro ⟨pane, declared, rfl⟩
    obtain ⟨k, place⟩ := List.mem_iff_getElem?.mp declared
    exact ⟨k, (List.getElem?_eq_some_iff.mp place).1, (window.panes k pane place).index⟩
  · rintro ⟨k, inside, rfl⟩
    exact ⟨w.panes[k], List.getElem_mem inside,
      (window.panes k _ (List.getElem?_eq_getElem inside)).index⟩

/-- Planning writes the indices of all windows and panes, and no other integers. -/
theorem WellFormed.mem_integers {home : String} {pl : Planner}
    (formed : pl.project.WellFormed home) (sourced : ∀ w ∈ pl.project.windows, w.Sourced)
    {startup : Window} (selected : pl.project.window? pl.project.startupWindow = some startup)
    {n : Int} :
    n ∈ (pl.project.windows.zipIdx.flatMap fun (w, i) => pl.windowIntegers w (i == 0)) ++
        [pl.live startup (Planner.startupPosition pl.project)] ↔ n ∈ pl.project.indexes := by
  have each {w : Window} {i : Nat} (found : pl.project.windows[i]? = some w) :
      n ∈ pl.windowIntegers w (i == 0) ↔ n = w.index ∨ ∃ k < w.panes.length, _ :=
    Planner.mem_windowIntegers (formed.windows i w found).panes_ne_nil
      (sourced w (List.mem_of_getElem? found)) fun first => by
        rw [(formed.windows i w found).index, beq_iff_eq.mp first, Int.natCast_zero, Int.add_zero]
  rw [formed.mem_indexes, List.mem_append, List.mem_flatMap, List.mem_singleton]
  constructor
  · rintro (⟨⟨w, i⟩, numbered, written⟩ | rfl)
    · have found := List.mk_mem_zipIdx_iff_getElem?.mp numbered
      exact ⟨w, List.mem_of_getElem? found, (each found).mp written⟩
    · obtain ⟨-, pane, declared, -⟩ := formed.startupPane_declared selected
      have member := mem_of_window? selected
      exact ⟨startup, member, .inr ⟨_, Window.position_lt (sourced startup member)
        (List.getElem?_eq_some_iff.mp declared).1, rfl⟩⟩
  · rintro ⟨w, member, index⟩
    obtain ⟨i, found⟩ := List.mem_iff_getElem?.mp member
    exact .inl ⟨(w, i), List.mk_mem_zipIdx_iff_getElem?.mpr found, (each found).mpr index⟩

/-- Once the prerequisites and the geometries of a well-formed project are there, its planning goes
well if all its indices can be written, and the plan is the schedule. -/
theorem plan_eq {home : String} {p : Project} {override : Option String}
    (formed : p.WellFormed home) {startup : Window}
    (selected : p.window? p.startupWindow = some startup) :
    p.plan override = p.prerequisites override >>= fun (session, args) =>
      p.geometries >>= fun _ => afterWriting p.indexes {
        sessionName := session
        tmuxArgs := args
        groups := (p.planner session args).schedule startup
        occasions := occasions (p.planner session args) } := by
  have layout : ∀ w ∈ p.windows, ∀ s ∈ w.layout, s ≠ "" := by
    intro w member s found
    obtain ⟨number, window⟩ := formed.window member
    exact (window.layout s found).1
  have planned (session : String) (args : List String) :
      windowsGroups (p.planner session args)
        (p.windows.map fun w => (w.index, w.geometry p.paneBaseIndex)) true p.windows = _ :=
    windowsGroups_eq (i := 0) (fun w member => geometryOf?_eq formed member) formed.panes_ne_nil
      layout
  have chosen (session : String) (args : List String) :
      (p.planner session args).startupGroup
        (p.windows.map fun w => (w.index, w.geometry p.paneBaseIndex)) = _ :=
    startupGroup_eq formed selected
  rw [Project.plan]
  refine bind_congr fun (session, args) => ?_
  cases known : p.geometries with
  | error failure => rfl
  | ok geometries =>
    obtain ⟨placed, rfl⟩ := (geometriesFrom_eq_ok formed.counted).mp known
    have integers {n : Int} := @WellFormed.mem_integers home (p.planner session args) formed
      (fun w member => (placed w member).2) startup selected n
    simp only [ok_bind, planned, chosen]
    refine Eq.trans ?_ (afterWriting_congr (forall_congr' fun n => imp_congr_left integers) _)
    refine afterWriting_bind (afterWriting_map.trans ?_)
    rw [Planner.group_eq_only]
    simp only [Planner.hooks, List.isEmpty_map]
    rfl

/-- A project is planned if its session and multiplexer are named, every pane is split from an
earlier one and every index can be written; and the plan is the schedule. -/
theorem plan_eq_ok {home : String} {p : Project} {override : Option String} {plan : Plan}
    (formed : p.WellFormed home) {startup : Window}
    (selected : p.window? p.startupWindow = some startup) :
    p.plan override = .ok plan ↔ ∃ session args, p.prerequisites override = .ok (session, args) ∧
      (∀ w ∈ p.windows, w.Sourced) ∧ (∀ n ∈ p.indexes, Text.isWritable n = true) ∧
      plan = {
        sessionName := session
        tmuxArgs := args
        groups := (p.planner session args).schedule startup
        occasions := occasions (p.planner session args) } := by
  rw [plan_eq formed selected, bind_eq_ok]
  constructor
  · rintro ⟨⟨session, args⟩, named, planned⟩
    obtain ⟨geometries, known, eq⟩ := bind_eq_ok.mp planned
    obtain ⟨sourced, -⟩ := (geometriesFrom_eq_ok formed.counted).mp known
    obtain ⟨writable, rfl⟩ := afterWriting_eq_ok.mp eq
    exact ⟨session, args, named, fun w member => (sourced w member).2, writable, rfl⟩
  · rintro ⟨session, args, named, sourced, writable, rfl⟩
    have known : p.geometries = .ok _ := (geometriesFrom_eq_ok formed.counted).mpr
      ⟨fun w member => ⟨formed.panes_ne_nil w member, sourced w member⟩, rfl⟩
    refine ⟨(session, args), named, ?_⟩
    simp only [known, ok_bind]
    exact afterWriting_of_writable writable _

theorem WellFormed.startup_selected {home : String} {p : Project} (formed : p.WellFormed home) :
    ∃ startup, p.window? p.startupWindow = some startup := by
  obtain ⟨startup, selected, -⟩ := formed.startup
  exact ⟨startup, selected⟩

/-- The plan of a project that was built is its schedule. Windows and panes are numbered from the
base indices, and every window has a pane to be made with. -/
theorem plan_groups {home : String} {wishes : Document.Wishes} {document : Tree} {p : Project}
    {override : Option String} {plan : Plan}
    (built : (Document.build home wishes document).result = .ok p)
    (planned : p.plan override = .ok plan) :
    p.prerequisites override = .ok (plan.sessionName, plan.tmuxArgs) ∧
    (∀ (i : Nat) (w : Window), p.windows[i]? = some w →
      w.index = p.windowBaseIndex + i ∧ w.panes ≠ [] ∧
        ∀ (j : Nat) (pane : Pane), w.panes[j]? = some pane → pane.index = p.paneBaseIndex + j) ∧
    ∃ startup, p.window? p.startupWindow = some startup ∧
      plan.groups = (p.planner plan.sessionName plan.tmuxArgs).schedule startup := by
  have formed := Document.build_wellFormed built
  obtain ⟨startup, selected⟩ := formed.startup_selected
  obtain ⟨session, args, named, -, -, rfl⟩ := (plan_eq_ok formed selected).mp planned
  refine ⟨named, fun i w found => ?_, startup, selected, rfl⟩
  have window := formed.windows i w found
  exact ⟨window.index, window.panes_ne_nil, fun j pane declared =>
    (window.panes j pane declared).index⟩

/-- Three panes, the last of them split from the first. -/
def workDocument : Tree := .mapping [
  (.text "name", .text "work"), (.text "detached", .flag true),
  (.text "windows", .list [.mapping [(.text "pre", .text "cd __SESSION__"),
    (.text "panes", .list [.text "vim", .mapping [(.text "logs", .null)],
      .mapping [(.text "split", .text "v"), (.text "split_from", .int 0)]])]])]

def workProject : Project where
  sessionName := some "work"
  attach := false
  windows := [{
    paneCommands := ["cd __SESSION__"]
    panes := [{ commands := ["vim"] }, { index := 2, name := some "logs" },
      { index := 3, split := some .vertical, splitFrom := some 0 }] }]

def workPlan : Plan where
  sessionName := "work"
  tmuxArgs := ["tmux"]
  groups := [
    ⟨.create, [.newSession "work" none none, .setBaseIndex "work" 1, .renumberWindows "work",
      .setPaneBaseIndex ⟨"work", 1⟩ 1], some 1, some 1⟩,
    ⟨.split, [.splitWindow ⟨⟨"work", 1⟩, 1⟩ (some .horizontal) (some "50%") none,
      .titlePane ⟨⟨"work", 1⟩, 2⟩ "logs"], some 1, some 2⟩,
    ⟨.split, [.splitWindow ⟨⟨"work", 1⟩, 1⟩ (some .vertical) (some "50%") none], some 1, some 3⟩,
    ⟨.paneCommands, [.typeLine ⟨⟨"work", 1⟩, 1⟩ "cd work", .typeLine ⟨⟨"work", 1⟩, 1⟩ "vim"],
      some 1, some 1⟩,
    ⟨.paneCommands, [.typeLine ⟨⟨"work", 1⟩, 3⟩ "cd work"], some 1, some 2⟩,
    ⟨.paneCommands, [.typeLine ⟨⟨"work", 1⟩, 2⟩ "cd work"], some 1, some 3⟩,
    ⟨.select, [.selectWindow ⟨"work", 1⟩, .selectPane ⟨⟨"work", 1⟩, 1⟩], some 1, some 1⟩]
  occasions := Occasion.all.map fun occasion => (occasion, [])

theorem build_workDocument :
    (Document.build "/home/ann" {} workDocument).result = .ok workProject :=
  eq_ok_of_toOption (by decide +kernel)

theorem plan_workProject : workProject.plan none = .ok workPlan :=
  eq_ok_of_toOption (by decide +kernel)

theorem plan_groups_work :
    workProject.prerequisites none = .ok ("work", ["tmux"]) ∧
    (∀ (i : Nat) (w : Window), workProject.windows[i]? = some w → w.index = 1 + i ∧ w.panes ≠ [] ∧
      ∀ (j : Nat) (pane : Pane), w.panes[j]? = some pane → pane.index = 1 + j) ∧
    ∃ startup, workProject.window? none = some startup ∧
      workPlan.groups = (workProject.planner "work" ["tmux"]).schedule startup :=
  plan_groups build_workDocument plan_workProject

end Project
end SessionPlan
