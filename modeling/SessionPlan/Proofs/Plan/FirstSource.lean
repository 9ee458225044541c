import SessionPlan.Proofs.Outcome
import SessionPlan.Plan

/-! The source of the first pane. A window comes with its first pane, which is split from none, so
a source that the pane names has no part in any plan. -/
namespace SessionPlan
open SessionPlan.Geometry (splitsFrom)

def Pane.withSource (pane : Pane) (source : Option Int) : Pane := { pane with splitFrom := source }

def Window.withFirstSource (w : Window) (source : Option Int) : Window :=
  { w with panes := w.panes.modifyHead (·.withSource source) }

/-- The project in which the first pane of each window has another source. -/
def Project.withFirstSources (p : Project) (sources : Nat → Option Int) : Project :=
  { p with windows := p.windows.mapIdx fun i w => w.withFirstSource (sources i) }

/-! ### Geometries -/

theorem Geometry.splitsFrom_withFirstSource (w : Window) (source : Option Int) (base : Int)
    (path : String) {order : List Nat} {position : Nat} {rest : List Pane} :
    splitsFrom (w.withFirstSource source) base path order position rest =
      splitsFrom w base path order position rest := by
  induction rest generalizing order position with
  | nil => rfl
  | cons pane rest ih =>
    rw [splitsFrom, splitsFrom]
    exact bind_congr fun (split, order) => by simp only [ih]

theorem Geometry.ofWindow_withFirstSource (w : Window) (source : Option Int) (base : Int)
    (path : String) : ofWindow (w.withFirstSource source) base path = ofWindow w base path := by
  cases panes : w.panes with
  | nil => simp [ofWindow, Window.withFirstSource, panes]
  | cons first rest =>
    have changed : (w.withFirstSource source).panes = first.withSource source :: rest := by
      rw [Window.withFirstSource, panes]; rfl
    simp only [ofWindow, panes, changed, splitsFrom_withFirstSource]
    rfl

theorem Project.geometriesFrom_withFirstSource (base : Int) {position : Nat} {list : List Window}
    (sources : Nat → Option Int) :
    geometriesFrom base position (list.mapIdx fun i w => w.withFirstSource (sources i)) =
      geometriesFrom base position list := by
  induction list generalizing position sources with
  | nil => rfl
  | cons w rest ih =>
    rw [List.mapIdx_cons, geometriesFrom, geometriesFrom, Geometry.ofWindow_withFirstSource,
      ih fun i => sources (i + 1)]
    rfl

/-! ### Groups -/

namespace Planner
variable (pl : Planner) (sources : Nat → Option Int)

/-- The planner of the changed project. -/
def withFirstSources : Planner := { pl with project := pl.project.withFirstSources sources }

theorem openWindow_withFirstSource (w : Window) (source : Option Int) (first : Bool) :
    (pl.withFirstSources sources).openWindow (w.withFirstSource source) first =
      pl.openWindow w first := by
  cases panes : w.panes with
  | nil => simp [openWindow, Window.withFirstSource, panes]
  | cons pane rest =>
    have changed : (w.withFirstSource source).panes = pane.withSource source :: rest := by
      rw [Window.withFirstSource, panes]; rfl
    simp only [openWindow, panes, changed]
    rfl

theorem splitGroup_withFirstSource (w : Window) (source : Option Int) (s : Split) :
    (pl.withFirstSources sources).splitGroup (w.withFirstSource source) s = pl.splitGroup w s := by
  have declared : (w.withFirstSource source).panes[s.pane]? =
      if s.pane = 0 then w.panes[s.pane]?.map (·.withSource source) else w.panes[s.pane]? := by
    rw [Window.withFirstSource, List.getElem?_modifyHead]
  by_cases first : s.pane = 0
  · rw [if_pos first] at declared
    rw [splitGroup, splitGroup, declared]
    cases w.panes[s.pane]? <;> rfl
  · rw [if_neg first] at declared
    rw [splitGroup, splitGroup, declared]
    cases w.panes[s.pane]? <;> rfl

theorem allPaneGroups_changed (w : Window) (source : Option Int) {panes : List Pane}
    {indices : List Int} :
    (pl.withFirstSources sources).allPaneGroups (w.withFirstSource source) panes indices =
      pl.allPaneGroups w panes indices := by
  induction panes generalizing indices with
  | nil => rfl
  | cons pane rest ih =>
    cases indices with
    | nil => rfl
    | cons live indices =>
      rw [allPaneGroups, allPaneGroups, ih]
      rfl

theorem allPaneGroups_withFirstSource (w : Window) (source : Option Int) (indices : List Int) :
    (pl.withFirstSources sources).allPaneGroups (w.withFirstSource source)
        (w.withFirstSource source).panes indices = pl.allPaneGroups w w.panes indices := by
  rw [allPaneGroups_changed]
  rw [Window.withFirstSource]
  cases w.panes with
  | nil => rfl
  | cons pane rest => cases indices <;> rfl

theorem windowGroups_withFirstSource (w : Window) (source : Option Int) (g : Geometry)
    (first : Bool) :
    (pl.withFirstSources sources).windowGroups (w.withFirstSource source) g first =
      pl.windowGroups w g first := by
  have splits : (pl.withFirstSources sources).splitGroup (w.withFirstSource source) =
      pl.splitGroup w := funext (pl.splitGroup_withFirstSource sources w source)
  simp only [windowGroups, openWindow_withFirstSource, splits, allPaneGroups_withFirstSource]
  rfl

end Planner

theorem Project.windowsGroups_withFirstSource (pl : Planner) (sources : Nat → Option Int)
    (geometries : List (Int × Geometry)) {first : Bool} {list : List Window}
    (own : Nat → Option Int) :
    windowsGroups (pl.withFirstSources sources) geometries first
        (list.mapIdx fun i w => w.withFirstSource (own i)) =
      windowsGroups pl geometries first list := by
  induction list generalizing first own with
  | nil => rfl
  | cons w rest ih =>
    have index : (w.withFirstSource (own 0)).index = w.index := rfl
    rw [List.mapIdx_cons, windowsGroups, windowsGroups, index]
    cases Planner.geometryOf? geometries w.index with
    | none => rfl
    | some g =>
      simp only [Planner.windowGroups_withFirstSource, ih fun i => own (i + 1)]

/-! ### The selection -/

theorem find?_withFirstSource (selector : Selector) {list : List Window}
    (sources : Nat → Option Int) :
    ∃ source, (list.mapIdx fun i w => w.withFirstSource (sources i)).find? selector.selects =
      (list.find? selector.selects).map (·.withFirstSource source) := by
  induction list generalizing sources with
  | nil => exact ⟨none, rfl⟩
  | cons w rest ih =>
    have same : selector.selects (w.withFirstSource (sources 0)) = selector.selects w := by
      cases selector <;> rfl
    rw [List.mapIdx_cons]
    cases chosen : selector.selects w with
    | true => exact ⟨sources 0, by simp [same, chosen]⟩
    | false =>
      obtain ⟨source, later⟩ := ih fun i => sources (i + 1)
      exact ⟨source, by simpa [List.find?_cons, same, chosen] using later⟩

theorem Project.window?_withFirstSources (p : Project) (sources : Nat → Option Int)
    (selector : Option Selector) :
    ∃ source, (p.withFirstSources sources).window? selector =
      (p.window? selector).map (·.withFirstSource source) := by
  cases selector with
  | some selector => exact find?_withFirstSource selector sources
  | none =>
    refine ⟨sources 0, ?_⟩
    simp only [window?, withFirstSources]
    cases p.windows with
    | nil => rfl
    | cons w rest => rw [List.mapIdx_cons]; rfl

theorem itemAt?_withFirstSource (w : Window) (source : Option Int) (position : Int) :
    (itemAt? (w.withFirstSource source).panes position).map Pane.index =
      (itemAt? w.panes position).map Pane.index := by
  have length : (w.withFirstSource source).panes.length = w.panes.length :=
    List.length_modifyHead
  rw [itemAt?, itemAt?, length]
  cases position? w.panes.length position with
  | none => rfl
  | some n =>
    rw [Option.bind_some, Option.bind_some, Window.withFirstSource, List.getElem?_modifyHead]
    split
    · cases w.panes[n]? <;> rfl
    · rfl

theorem Planner.startupGroup_withFirstSources (pl : Planner) (sources : Nat → Option Int)
    (geometries : List (Int × Geometry)) :
    (pl.withFirstSources sources).startupGroup geometries = pl.startupGroup geometries := by
  obtain ⟨source, selected⟩ :=
    pl.project.window?_withFirstSources sources pl.project.startupWindow
  have changed : (pl.withFirstSources sources).project.window?
      (pl.withFirstSources sources).project.startupWindow = _ := selected
  rw [startupGroup, startupGroup]
  simp only [changed]
  cases pl.project.window? pl.project.startupWindow with
  | none => rfl
  | some w =>
    have index : (w.withFirstSource source).index = w.index := rfl
    simp only [Option.map_some, index]
    cases geometryOf? geometries w.index with
    | none => rfl
    | some g =>
      -- of the pane that is shown first, only its number counts
      have items := itemAt?_withFirstSource w source
      have place : startupPlace (pl.withFirstSources sources).project = startupPlace pl.project :=
        rfl
      have target : (pl.withFirstSources sources).target (w.withFirstSource source) = pl.target w :=
        rfl
      have paneTarget (live : Int) : (pl.withFirstSources sources).paneTarget
          (w.withFirstSource source) live = pl.paneTarget w live := rfl
      have number := items (startupPlace pl.project)
      simp only [place, target, paneTarget]
      cases itemAt? g.finalIndices (startupPlace pl.project) with
      | none => rfl
      | some live =>
        refine bind_congr fun _ => ?_
        cases other : itemAt? (w.withFirstSource source).panes (startupPlace pl.project) <;>
          cases own : itemAt? w.panes (startupPlace pl.project) <;> simp_all

/-- Whatever sources the first panes of the windows name, the plan is the same. -/
theorem Project.plan_withFirstSources (p : Project) (sources : Nat → Option Int)
    (override : Option String) :
    (p.withFirstSources sources).plan override = p.plan override := by
  have named : (p.withFirstSources sources).prerequisites override = p.prerequisites override := rfl
  have known : (p.withFirstSources sources).geometries = p.geometries :=
    geometriesFrom_withFirstSource p.paneBaseIndex sources
  rw [plan, plan, named, known]
  refine bind_congr fun (session, args) => bind_congr fun geometries => ?_
  have windows : windowsGroups ((p.withFirstSources sources).planner session args) geometries true
      (p.withFirstSources sources).windows = _ :=
    windowsGroups_withFirstSource (p.planner session args) sources geometries sources
  have startup : ((p.withFirstSources sources).planner session args).startupGroup geometries = _ :=
    (p.planner session args).startupGroup_withFirstSources sources geometries
  simp only [windows, startup]
  rfl

end SessionPlan
