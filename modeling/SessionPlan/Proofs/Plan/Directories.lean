import SessionPlan.Proofs.Outcome
import SessionPlan.Plan

/-! Directories in a plan. They are handed on to the multiplexer and nothing else hangs on them: a
project with other directories has the same plan with these directories in it. -/
namespace SessionPlan
open SessionPlan.Geometry (splitsFrom)

def Pane.mapDirectory (f : String → String) (pane : Pane) : Pane :=
  { pane with workingDir := pane.workingDir.map f }

def Window.mapDirectories (f : String → String) (w : Window) : Window :=
  { w with workingDir := w.workingDir.map f, panes := w.panes.map (·.mapDirectory f) }

def Project.mapDirectories (f : String → String) (p : Project) : Project :=
  { p with workingDir := p.workingDir.map f, windows := p.windows.map (·.mapDirectories f) }

namespace Command

/-- The directory that a command opens a pane in. -/
def directory? : Command → Option String
  | .newSession _ _ directory | .newWindow _ _ directory | .splitWindow _ _ _ directory => directory
  | _ => none

def mapDirectory (f : String → String) : Command → Command
  | .newSession session window directory => .newSession session window (directory.map f)
  | .newWindow target name directory => .newWindow target name (directory.map f)
  | .splitWindow target direction size directory =>
    .splitWindow target direction size (directory.map f)
  | other => other

end Command

def Group.mapDirectories (f : String → String) (g : Group) : Group :=
  { g with commands := g.commands.map (·.mapDirectory f) }

def Plan.mapDirectories (f : String → String) (plan : Plan) : Plan :=
  { plan with groups := plan.groups.map (·.mapDirectories f) }

/-- The directories that a plan opens panes in. -/
def Plan.directories (plan : Plan) : List String :=
  (plan.groups.flatMap (·.commands)).filterMap Command.directory?

theorem Command.mapDirectory_inj {f g : String → String} (c : Command) :
    c.mapDirectory f = c.mapDirectory g ↔ ∀ d ∈ c.directory?, f d = g d := by
  have within (directory : Option String) :
      directory.map f = directory.map g ↔ ∀ d ∈ directory, f d = g d := by
    cases directory <;> simp
  cases c with
  | newSession | newWindow | splitWindow =>
    rw [directory?, ← within]
    simp [mapDirectory]
  | _ => exact iff_of_true rfl nofun

/-- A plan in which other directories are put stays the same only if each of them does. -/
theorem Plan.mapDirectories_inj {f g : String → String} (plan : Plan) :
    plan.mapDirectories f = plan.mapDirectories g ↔ ∀ d ∈ plan.directories, f d = g d := by
  have groups : plan.mapDirectories f = plan.mapDirectories g ↔
      plan.groups.map (·.mapDirectories f) = plan.groups.map (·.mapDirectories g) :=
    ⟨fun same => congrArg Plan.groups same,
      fun same => congrArg (fun groups => { plan with groups := groups }) same⟩
  have commands (group : Group) : group.mapDirectories f = group.mapDirectories g ↔
      ∀ c ∈ group.commands, ∀ d ∈ c.directory?, f d = g d := by
    simp only [Group.mapDirectories, Group.mk.injEq, List.map_inj_left, Command.mapDirectory_inj,
      true_and, and_true]
  rw [groups, List.map_inj_left, directories]
  simp only [commands, List.mem_filterMap, List.mem_flatMap, Option.mem_def]
  constructor
  · rintro same d ⟨c, ⟨group, inside, member⟩, opened⟩
    exact same group inside c member d opened
  · intro same group inside c member d opened
    exact same d ⟨c, ⟨group, inside, member⟩, opened⟩

/-! ### Selections and geometries -/

theorem Selector.selects_mapDirectories (selector : Selector) (f : String → String) (w : Window) :
    selector.selects (w.mapDirectories f) = selector.selects w := by
  cases selector <;> rfl

theorem Project.window?_mapDirectories (p : Project) (f : String → String)
    (selector : Option Selector) :
    (p.mapDirectories f).window? selector = (p.window? selector).map (·.mapDirectories f) := by
  cases selector with
  | none => exact List.head?_map ..
  | some selector =>
    have same : selector.selects ∘ (·.mapDirectories f) = selector.selects :=
      funext (selector.selects_mapDirectories f)
    rw [window?, window?, Project.mapDirectories, List.find?_map, same]

variable (f : String → String)

theorem Geometry.splitsFrom_mapDirectories (w : Window) (base : Int) (path : String)
    (order : List Nat) (position : Nat) (rest : List Pane) :
    splitsFrom (w.mapDirectories f) base path order position (rest.map (·.mapDirectory f)) =
      splitsFrom w base path order position rest := by
  induction rest generalizing order position with
  | nil => rfl
  | cons pane rest ih =>
    rw [List.map_cons, splitsFrom, splitsFrom]
    exact bind_congr fun (split, order) => by simp only [ih]

theorem Geometry.ofWindow_mapDirectories (w : Window) (base : Int) (path : String) :
    ofWindow (w.mapDirectories f) base path = ofWindow w base path := by
  have changed : (w.mapDirectories f).panes = w.panes.map (·.mapDirectory f) := rfl
  cases panes : w.panes with
  | nil => simp [ofWindow, changed, panes]
  | cons first rest =>
    simp only [ofWindow, changed, panes, List.map_cons, splitsFrom_mapDirectories, List.length_cons,
      List.length_map]
    rfl

theorem Project.geometriesFrom_mapDirectories (base : Int) (position : Nat) (list : List Window) :
    geometriesFrom base position (list.map (·.mapDirectories f)) =
      geometriesFrom base position list := by
  induction list generalizing position with
  | nil => rfl
  | cons w rest ih =>
    rw [List.map_cons, geometriesFrom, geometriesFrom, Geometry.ofWindow_mapDirectories, ih]
    rfl

/-! ### Groups -/

/-- Only an empty directory counts as none, so it has to stay so. -/
structure KeepsEmpty : Prop where
  iff : ∀ directory, f directory = "" ↔ directory = ""

variable {f} (keeps : KeepsEmpty f)
include keeps

theorem KeepsEmpty.orNonempty (directory alternative : Option String) :
    orNonempty (directory.map f) (alternative.map f) =
      (SessionPlan.orNonempty directory alternative).map f := by
  cases directory with
  | none => rfl
  | some text =>
    have same : (f text).isEmpty = text.isEmpty := by
      rw [Bool.eq_iff_iff, String.isEmpty_iff, String.isEmpty_iff]
      exact keeps.iff text
    simp only [SessionPlan.orNonempty, Option.map_some, same]
    split <;> rfl

theorem Project.resolve_mapDirectories (p : Project) (w : Window) (pane : Pane) :
    (p.mapDirectories f).resolve (w.mapDirectories f) (pane.mapDirectory f) =
      { p.resolve w pane with
        pane := pane.mapDirectory f
        workingDir := (p.resolve w pane).workingDir.map f } := by
  have inherited : (p.mapDirectories f).windowDir (w.mapDirectories f) =
      (p.windowDir w).map f := keeps.orNonempty w.workingDir p.workingDir
  have own := keeps.orNonempty pane.workingDir (p.windowDir w)
  rw [← inherited] at own
  exact congrArg (fun directory => { p.resolve w pane with
    pane := pane.mapDirectory f, workingDir := directory }) own

/-- The directory that a pane is opened in. -/
theorem Project.opened_mapDirectories (p : Project) (w : Window) (pane : Pane) :
    SessionPlan.orNonempty
        ((p.mapDirectories f).resolve (w.mapDirectories f) (pane.mapDirectory f)).workingDir none =
      (SessionPlan.orNonempty (p.resolve w pane).workingDir none).map f := by
  rw [p.resolve_mapDirectories keeps]
  exact keeps.orNonempty _ none

namespace Planner
variable (pl : Planner)

omit keeps

def mapDirectories (f : String → String) (pl : Planner) : Planner :=
  { pl with project := pl.project.mapDirectories f }

theorem group_map (role : Role) (commands : List Command) (window pane : Option Int) :
    group role (commands.map (·.mapDirectory f)) window pane =
      (group role commands window pane).map (·.mapDirectories f) := by
  cases commands <;> rfl

/-- A group that opens no pane. -/
theorem group_eq_map {role : Role} {commands : List Command} {window pane : Option Int}
    (clear : ∀ c ∈ commands, c.mapDirectory f = c) :
    group role commands window pane =
      (group role commands window pane).map (·.mapDirectories f) := by
  rw [← group_map, List.map_congr_left clear, List.map_id']

theorem hooksGroup_map (w : Option Window) (target : Option PaneTarget) (lines : List String)
    (role : Role) (window pane : Option Int) :
    (group role (pl.hooks w target lines) window pane).map (·.mapDirectories f) =
      group role (pl.hooks w target lines) window pane :=
  (group_eq_map (List.forall_mem_map.mpr fun _ _ => rfl)).symm

theorem titles_map (target : PaneTarget) (name : Option String) :
    (name.toList.map (Command.titlePane target)).map (·.mapDirectory f) =
      name.toList.map (Command.titlePane target) := by
  cases name <;> rfl

theorem layoutGroup_mapDirectories (w : Window) (g : Geometry) :
    (pl.mapDirectories f).layoutGroup (w.mapDirectories f) g =
      (pl.layoutGroup w g).map (·.mapDirectories f) :=
  group_eq_map (List.forall_mem_map.mpr fun _ _ => rfl)

include keeps

theorem openWindow_mapDirectories (w : Window) (first : Bool) :
    (pl.mapDirectories f).openWindow (w.mapDirectories f) first =
      (·.map (·.mapDirectories f)) <$> pl.openWindow w first := by
  have changed : (w.mapDirectories f).panes = w.panes.map (·.mapDirectory f) := rfl
  cases panes : w.panes with
  | nil =>
    rw [openWindow, openWindow, changed, panes]
    rfl
  | cons pane rest =>
    rw [openWindow, openWindow, changed, panes]
    dsimp only [List.map_cons]
    rw [map_bind]
    refine bind_congr fun _ =>
      congrArg Except.ok (Eq.trans (congrArg (group _ · _ _) ?_) (group_map ..))
    have directory : SessionPlan.orNonempty ((pl.mapDirectories f).project.resolve
        (w.mapDirectories f) (pane.mapDirectory f)).workingDir none = _ :=
      pl.project.opened_mapDirectories keeps w pane
    rw [List.map_append, List.map_cons, titles_map, directory]
    cases first <;> rfl

theorem splitGroup_mapDirectories (w : Window) (s : Split) :
    (pl.mapDirectories f).splitGroup (w.mapDirectories f) s =
      (·.map (·.mapDirectories f)) <$> pl.splitGroup w s := by
  have changed : (w.mapDirectories f).panes[s.pane]? = w.panes[s.pane]?.map (·.mapDirectory f) :=
    List.getElem?_map ..
  rw [splitGroup, splitGroup, changed]
  cases w.panes[s.pane]? with
  | none => rfl
  | some pane =>
    have directory : SessionPlan.orNonempty ((pl.mapDirectories f).project.resolve
        (w.mapDirectories f) (pane.mapDirectory f)).workingDir none = _ :=
      pl.project.opened_mapDirectories keeps w pane
    dsimp only [Option.map_some]
    rw [map_bind]
    refine bind_congr fun _ =>
      congrArg Except.ok (Eq.trans (congrArg (group _ · _ _) ?_) (group_map ..))
    rw [List.map_cons, titles_map, directory]
    rfl

theorem paneGroups_mapDirectories (w : Window) (pane : Pane) (live : Int) :
    (pl.mapDirectories f).paneGroups (w.mapDirectories f) (pane.mapDirectory f) live =
      (pl.paneGroups w pane live).map (·.mapDirectories f) := by
  have resolved : (pl.mapDirectories f).project.resolve (w.mapDirectories f)
      (pane.mapDirectory f) = _ := pl.project.resolve_mapDirectories keeps w pane
  have typed : ∀ c ∈ (pl.project.resolve w pane).commands.map (fun command => Command.typeLine
      (pl.paneTarget w live) ((pl.scope (some w) (some (pl.paneTarget w live))).fill command)) ++
        (if pane.clear then [.clearScreen (pl.paneTarget w live)] else []),
      c.mapDirectory f = c := by
    intro c member
    rcases List.mem_append.mp member with line | cleared
    · obtain ⟨command, -, rfl⟩ := List.mem_map.mp line
      rfl
    · split at cleared
      · obtain rfl := List.mem_singleton.mp cleared
        rfl
      · cases cleared
  rw [paneGroups, paneGroups, resolved, List.map_append, List.map_append,
    hooksGroup_map, hooksGroup_map, ← group_eq_map typed]
  rfl

theorem allPaneGroups_mapDirectories (w : Window) (panes : List Pane) (indices : List Int) :
    (pl.mapDirectories f).allPaneGroups (w.mapDirectories f) (panes.map (·.mapDirectory f))
        indices = (·.map (·.mapDirectories f)) <$> pl.allPaneGroups w panes indices := by
  induction panes generalizing indices with
  | nil => rfl
  | cons pane rest ih =>
    cases indices with
    | nil => rfl
    | cons live indices =>
      rw [List.map_cons, allPaneGroups, allPaneGroups, ih, pl.paneGroups_mapDirectories keeps]
      simp only [bind_map_left, map_bind, map_pure, List.map_append]

theorem windowGroups_mapDirectories (w : Window) (g : Geometry) (first : Bool) :
    (pl.mapDirectories f).windowGroups (w.mapDirectories f) g first =
      (·.map (·.mapDirectories f)) <$> pl.windowGroups w g first := by
  have splits : (pl.mapDirectories f).splitGroup (w.mapDirectories f) =
      fun s => (·.map (·.mapDirectories f)) <$> pl.splitGroup w s :=
    funext (pl.splitGroup_mapDirectories keeps w)
  have panes : (w.mapDirectories f).panes = w.panes.map (·.mapDirectory f) := rfl
  have hooks (role : Role) (lines : List String) :
      group role ((pl.mapDirectories f).hooks (some (w.mapDirectories f)) none lines)
          (some (w.mapDirectories f).index) none =
        (group role (pl.hooks (some w) none lines) (some w.index) none).map (·.mapDirectories f) :=
    (hooksGroup_map pl ..).symm
  rw [windowGroups, windowGroups, pl.openWindow_mapDirectories keeps, splits, panes,
    pl.allPaneGroups_mapDirectories keeps, mapM_map, pl.layoutGroup_mapDirectories]
  simp only [bind_map_left, map_bind, map_pure, List.map_append, List.map_flatten, ← hooks]
  rfl

end Planner

theorem Project.windowsGroups_mapDirectories (pl : Planner) (geometries : List (Int × Geometry))
    (first : Bool) (list : List Window) :
    windowsGroups (pl.mapDirectories f) geometries first (list.map (·.mapDirectories f)) =
      (·.map (·.mapDirectories f)) <$> windowsGroups pl geometries first list := by
  induction list generalizing first with
  | nil => rfl
  | cons w rest ih =>
    have index : (w.mapDirectories f).index = w.index := rfl
    rw [List.map_cons, windowsGroups, windowsGroups, index]
    cases Planner.geometryOf? geometries w.index with
    | none => rfl
    | some g =>
      simp only [pl.windowGroups_mapDirectories keeps, ih, bind_map_left, map_bind, map_pure,
        List.map_append]

omit keeps in
/-- The pane that is shown first is told by its number. -/
theorem itemAt?_mapDirectories (w : Window) (position : Int) :
    itemAt? (w.mapDirectories f).panes position =
      (itemAt? w.panes position).map (·.mapDirectory f) := by
  have changed : (w.mapDirectories f).panes = w.panes.map (·.mapDirectory f) := rfl
  rw [itemAt?, itemAt?, changed, List.length_map, Option.map_bind]
  exact congrArg _ (funext fun n => List.getElem?_map ..)

omit keeps in
theorem Planner.startupGroup_mapDirectories (pl : Planner) (geometries : List (Int × Geometry)) :
    (pl.mapDirectories f).startupGroup geometries =
      (·.map (·.mapDirectories f)) <$> pl.startupGroup geometries := by
  have selected : (pl.mapDirectories f).project.window?
      (pl.mapDirectories f).project.startupWindow = _ :=
    pl.project.window?_mapDirectories f pl.project.startupWindow
  rw [startupGroup, startupGroup]
  simp only [selected]
  cases pl.project.window? pl.project.startupWindow with
  | none => rfl
  | some w =>
    have index : (w.mapDirectories f).index = w.index := rfl
    simp only [Option.map_some, index]
    cases geometryOf? geometries w.index with
    | none => rfl
    | some g =>
      have place : startupPlace (pl.mapDirectories f).project = startupPlace pl.project := rfl
      simp only [place, itemAt?_mapDirectories]
      cases itemAt? g.finalIndices (startupPlace pl.project) with
      | none => rfl
      | some live =>
        dsimp only
        rw [map_bind]
        refine bind_congr fun _ => ?_
        cases itemAt? w.panes (startupPlace pl.project) <;> rfl

/-- The plan of a project with other directories is the plan with these directories. -/
theorem Project.plan_mapDirectories (p : Project) (override : Option String) :
    (p.mapDirectories f).plan override = (·.mapDirectories f) <$> p.plan override := by
  have named : (p.mapDirectories f).prerequisites override = p.prerequisites override := rfl
  have known : (p.mapDirectories f).geometries = p.geometries :=
    geometriesFrom_mapDirectories f p.paneBaseIndex 0 p.windows
  rw [plan, plan, named, known, map_bind]
  refine bind_congr fun (session, args) => ?_
  rw [map_bind]
  refine bind_congr fun geometries => ?_
  have windows : windowsGroups ((p.mapDirectories f).planner session args) geometries true
      (p.mapDirectories f).windows = _ :=
    windowsGroups_mapDirectories keeps (p.planner session args) geometries true p.windows
  have startup : ((p.mapDirectories f).planner session args).startupGroup geometries = _ :=
    (p.planner session args).startupGroup_mapDirectories geometries
  have hooks : Planner.group .postCreate (((p.mapDirectories f).planner session args).hooks none
      none (p.mapDirectories f).postCreate) none none = _ :=
    (Planner.hooksGroup_map (f := f) (p.planner session args) ..).symm
  have attached : (if p.attach then [(⟨.attach, [.attach session], none, none⟩ : Group)]
      else []).map (·.mapDirectories f) =
        if p.attach then [⟨.attach, [.attach session], none, none⟩] else [] := by
    split <;> rfl
  simp only [windows, startup, hooks, bind_map_left, map_bind, map_pure, Plan.mapDirectories,
    List.map_append, attached]
  rfl

end SessionPlan
