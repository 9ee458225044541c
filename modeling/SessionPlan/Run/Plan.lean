import SessionPlan.Plan
import SessionPlan.Run.Basic

/-! Planning a session with a log of it: the geometry of every window first, then the windows one
by one, then the whole. -/
namespace SessionPlan.Run
open SessionPlan.Log

def geometryRecord (w : Window) (g : Geometry) : Record where
  level := .debug
  message := "Window geometry resolved"
  origin := some .geometry
  fields := [operation "resolve_window_geometry", status "success",
    ("window_index", .int w.index), ("layout", Tree.optional .text w.layout),
    ("named_layout", .flag w.hasNamedLayout), metrics [("splits", g.splits.length)]]

def geometry (w : Window) (base : Int) (path : String) : Noted Record Failure Geometry :=
  Noted.ofAnswer (fun g => [geometryRecord w g]) (Geometry.ofWindow w base path)

/-- Records of the windows up to the first without a geometry. -/
def geometryRecords (base : Int) : List Window → List Record
  | [] => []
  | w :: rest =>
    match Geometry.ofWindow w base "" with
    | .ok g => geometryRecord w g :: geometryRecords base rest
    | .error _ => []

def windowRecord (w : Window) : Record where
  level := .debug
  message := "Window sequenced"
  origin := some .sequencing
  fields := [operation "sequence_project", ("window_index", .int w.index),
    ("window_name", Tree.optional .text w.name), metrics [("panes", w.panes.length)]]

/-- Records of the windows up to the first that cannot be planned. -/
def windowRecords (pl : Planner) (geometries : List (Int × Geometry)) (first : Bool) :
    List Window → List Record
  | [] => []
  | w :: rest =>
    match Project.windowsGroups pl geometries first [w] with
    | .ok _ => windowRecord w :: windowRecords pl geometries false rest
    | .error _ => []

def plannedRecord (plan : Plan) : Record where
  level := .debug
  message := "Project sequenced"
  origin := some .sequencing
  fields := [operation "sequence_project", status "success",
    ("session_name", .text plan.sessionName),
    metrics [("groups", plan.groups.length),
      ("commands", (plan.groups.flatMap (·.commands)).length)]]

def planRecords (p : Project) (override : Option String) : List Record :=
  match p.prerequisites override with
  | .error _ => []
  | .ok (session, args) =>
    geometryRecords p.paneBaseIndex p.windows ++
      match p.geometries with
      | .error _ => []
      | .ok geometries =>
        windowRecords (p.planner session args) geometries true p.windows ++
          match p.plan override with
          | .ok plan => [plannedRecord plan]
          | .error _ => []

def plan (p : Project) (override : Option String) : Noted Record Failure Plan :=
  ⟨planRecords p override, p.plan override⟩

end SessionPlan.Run
