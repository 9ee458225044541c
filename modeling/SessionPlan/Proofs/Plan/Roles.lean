import SessionPlan.Proofs.Plan.Schedule

/-! What the groups of a schedule come to: their commands one after the other, the groups of one
role, and the lines that are typed. -/
namespace SessionPlan

def Group.place (g : Group) : Option Int × Option Int := (g.window, g.pane)

/-- The line that a command types, and where. -/
def Command.typed? : Command → Option (PaneTarget × String)
  | .typeLine target line => some (target, line)
  | _ => none

/-- All lines that a plan types, in order. -/
def Plan.typed (plan : Plan) : List (PaneTarget × String) :=
  (plan.groups.flatMap Group.commands).filterMap Command.typed?

namespace Planner

/-! ### Commands -/

theorem commands_only {called : Bool} {g : Group} (idle : called = false → g.commands = []) :
    (only called g).flatMap Group.commands = g.commands := by
  cases called with
  | true => simp [only]
  | false => simp [only, idle rfl]

theorem commands_paneSchedule (pl : Planner) (w : Window) (pane : Pane) (j : Nat) :
    (pl.paneSchedule w pane j).flatMap Group.commands =
      ((pl.project.onPaneCreate ++ w.onPaneCreate ++ pane.onCreate).map
        (pl.paneLine w (pl.live w j))).map .runShell ++
      (((pl.project.paneCommands ++ w.paneCommands ++ pane.commands).map
        (pl.paneLine w (pl.live w j))).map (.typeLine (pl.paneAt w (pl.live w j))) ++
        if pane.clear then [.clearScreen (pl.paneAt w (pl.live w j))] else []) ++
      ((pl.project.postPaneCreate ++ w.postPaneCreate ++ pane.postCreate).map
        (pl.paneLine w (pl.live w j))).map .runShell := by
  simp only [paneSchedule, List.flatMap_append]
  rw [commands_only, commands_only, commands_only]
  · simp only [List.map_map]
    rfl
  all_goals
    intro idle
    simp only [Bool.not_eq_false', Bool.or_eq_false_iff, List.isEmpty_iff] at idle
    simp [idle]

theorem commands_windowSchedule {pl : Planner} {w : Window} {pane : Pane} {further : List Pane}
    (panes : w.panes = pane :: further) (first : Bool) :
    (pl.windowSchedule w first).flatMap Group.commands =
      (pl.opening w pane first).commands ++
      (((further.zipIdx 1).map fun (pane, j) => pl.splitting w pane j).flatMap Group.commands ++
      ((w.layout.toList.map fun layout => (⟨.layout, [.selectLayout (pl.windowAt w) layout],
        some w.index, none⟩ : Group)).flatMap Group.commands ++
      ((w.onCreate.map (pl.windowLine w)).map .runShell ++
      ((w.panes.zipIdx.flatMap fun (pane, j) => pl.paneSchedule w pane j).flatMap Group.commands ++
      (w.postCreate.map (pl.windowLine w)).map .runShell)))) := by
  have head : w.panes.head? = some pane := by rw [panes]; rfl
  have tail : w.panes.tail = further := by rw [panes]; rfl
  simp only [windowSchedule, head, tail, Option.toList_some, List.map_cons, List.map_nil,
    List.flatMap_append, List.flatMap_cons, List.flatMap_nil, List.append_nil, List.append_assoc]
  rw [commands_only, commands_only]
  · simp only [List.map_map]
    rfl
  all_goals
    intro idle
    simp only [Bool.not_eq_false', List.isEmpty_iff] at idle
    simp [idle]

theorem commands_schedule {pl : Planner} (startup : Window) :
    (pl.schedule startup).flatMap Group.commands =
      (pl.project.windows.zipIdx.flatMap fun (w, i) => pl.windowSchedule w (i == 0)).flatMap
        Group.commands ++
      ((pl.project.postCreate.map pl.sessionLine).map .runShell ++
      ((pl.selecting startup).commands ++
        if pl.project.attach then [.attach pl.session] else [])) := by
  have attaching : (only pl.project.attach ⟨.attach, [.attach pl.session], none, none⟩).flatMap
      Group.commands = if pl.project.attach then [.attach pl.session] else [] := by
    cases pl.project.attach <;> rfl
  simp only [schedule, List.flatMap_append, attaching, List.append_assoc]
  rw [commands_only]
  · simp only [List.map_map, List.flatMap_cons, List.flatMap_nil, List.append_nil]
    rfl
  · intro idle
    simp only [Bool.not_eq_false', List.isEmpty_iff] at idle
    simp [idle]

/-! ### Roles -/

theorem filter_only (r : Role) (called : Bool) (g : Group) :
    (only called g).filter (·.role = r) = if g.role = r then only called g else [] := by
  cases called <;> simp [only, List.filter_cons]

theorem filter_of_role {α : Type} {items : List α} {f : α → Group} (role : Role)
    (same : ∀ a ∈ items, (f a).role = role) (r : Role) :
    (items.map f).filter (·.role = r) = if role = r then items.map f else [] := by
  have each : ∀ g ∈ items.map f, g.role = role := by
    intro g member
    obtain ⟨a, known, rfl⟩ := List.mem_map.mp member
    exact same a known
  by_cases here : role = r
  · rw [if_pos here]
    exact List.filter_eq_self.mpr fun g member => by simp [each g member, here]
  · rw [if_neg here]
    exact List.filter_eq_nil_iff.mpr fun g member => by simp [each g member, here]

/-- Roles of which a window has groups before any hook runs. -/
def Making (r : Role) : Prop := r = .create ∨ r = .split ∨ r = .layout

theorem filter_paneSchedule {pl : Planner} {w : Window} {pane : Pane} {j : Nat} {r : Role}
    (making : Making r) : (pl.paneSchedule w pane j).filter (·.role = r) = [] := by
  rcases making with rfl | rfl | rfl <;>
    simp [paneSchedule, List.filter_append, filter_only]

theorem filter_windowSchedule {pl : Planner} {w : Window} {first : Bool} {r : Role}
    (making : Making r) :
    (pl.windowSchedule w first).filter (·.role = r) =
      (if (if first then Role.create else .split) = r
        then w.panes.head?.toList.map fun pane => pl.opening w pane first else []) ++
      (if Role.split = r
        then (w.panes.tail.zipIdx 1).map fun (pane, j) => pl.splitting w pane j else []) ++
      (if Role.layout = r
        then w.layout.toList.map fun layout =>
          ⟨.layout, [.selectLayout (pl.windowAt w) layout], some w.index, none⟩ else []) := by
  have panes : (w.panes.zipIdx.flatMap fun (pane, j) => pl.paneSchedule w pane j).filter
      (·.role = r) = [] := by
    rw [List.filter_flatMap]
    exact List.flatMap_eq_nil_iff.mpr fun _ _ => filter_paneSchedule making
  have hooks {role : Role} (later : ¬Making role) : role ≠ r := by
    rintro rfl; exact later making
  simp only [windowSchedule, List.filter_append, panes, filter_only,
    if_neg (hooks (by simp [Making] : ¬Making .onCreate)),
    if_neg (hooks (by simp [Making] : ¬Making .postCreate)), List.append_nil]
  rw [filter_of_role (if first then .create else .split) (fun _ _ => rfl),
    filter_of_role .split (fun _ _ => rfl), filter_of_role .layout (fun _ _ => rfl)]

theorem filter_schedule {pl : Planner} {startup : Window} {r : Role} (making : Making r) :
    (pl.schedule startup).filter (·.role = r) =
      pl.project.windows.zipIdx.flatMap fun (w, i) =>
        (pl.windowSchedule w (i == 0)).filter (·.role = r) := by
  have tail {role : Role} (later : ¬Making role) : role ≠ r := by
    rintro rfl; exact later making
  have selection : [pl.selecting startup].filter (·.role = r) = [] := by
    have other : Role.select ≠ r := tail (by simp [Making])
    simp [selecting, other]
  simp only [schedule, List.filter_append, filter_only, selection,
    if_neg (tail (by simp [Making] : ¬Making .postCreate)),
    if_neg (tail (by simp [Making] : ¬Making .attach)), List.append_nil]
  exact List.filter_flatMap

/-- One group selects, and it selects the startup window. -/
theorem filter_select (pl : Planner) (startup : Window) :
    (pl.schedule startup).filter (·.role = .select) = [pl.selecting startup] := by
  have pane (w : Window) (pane : Pane) (j : Nat) :
      (pl.paneSchedule w pane j).filter (·.role = .select) = [] := by
    simp [paneSchedule, List.filter_append, filter_only]
  have window (w : Window) (first : Bool) :
      (pl.windowSchedule w first).filter (·.role = .select) = [] := by
    simp only [windowSchedule, List.filter_append, filter_only, List.filter_flatMap, pane]
    rw [filter_of_role (if first then .create else .split) (fun _ _ => rfl),
      filter_of_role .split (fun _ _ => rfl), filter_of_role .layout (fun _ _ => rfl)]
    cases first <;> simp
  have selection : [pl.selecting startup].filter (·.role = .select) = [pl.selecting startup] := rfl
  simp only [schedule, List.filter_append, List.filter_flatMap, window, filter_only, selection]
  simp

/-- Only the first window is made in its own way. -/
theorem flatMap_windows {α : Type} (f : Window → Bool → List α) {first : Window}
    {rest : List Window} :
    ((first :: rest).zipIdx.flatMap fun (w, i) => f w (i == 0)) =
      f first true ++ rest.flatMap fun w => f w false := by
  have later (n : Nat) : ((rest.zipIdx (n + 1)).flatMap fun (w, i) => f w (i == 0)) =
      rest.flatMap fun w => f w false := by
    induction rest generalizing n with
    | nil => rfl
    | cons w rest ih => rw [List.zipIdx_cons, List.flatMap_cons, ih, List.flatMap_cons]; rfl
  rw [List.zipIdx_cons, List.flatMap_cons, later]
  rfl

/-- The panes of a window, as groups are tagged with them. -/
def places (w : Window) : List (Option Int × Option Int) :=
  w.panes.map fun pane => (some w.index, some pane.index)

theorem map_place_splitting (pl : Planner) (w : Window) :
    ((w.panes.tail.zipIdx 1).map fun (pane, j) => pl.splitting w pane j).map Group.place =
      (places w).tail := by
  rw [List.map_map, places, ← List.map_tail]
  conv => rhs; rw [← List.zipIdx_map_fst 1 w.panes.tail, List.map_map]
  rfl

theorem map_place_opening {home : String} {number : Int} {pl : Planner} {w : Window}
    (formed : w.WellFormed home number pl.project.paneBaseIndex) (first : Bool) :
    (w.panes.head?.toList.map fun pane => pl.opening w pane first).map Group.place ++
      (places w).tail = places w := by
  obtain ⟨pane, further, panes⟩ := List.exists_cons_of_ne_nil formed.panes_ne_nil
  have index := (formed.panes 0 pane (by rw [panes]; rfl)).index
  rw [Int.natCast_zero, Int.add_zero] at index
  simp [places, panes, opening, Group.place, index]

variable {home : String} {pl : Planner} {startup : Window}

/-- One group makes the session, with its first window and pane. -/
theorem create_places (formed : pl.project.WellFormed home) :
    ((pl.schedule startup).filter (·.role = .create)).map Group.place =
      [(some pl.project.windowBaseIndex, some pl.project.paneBaseIndex)] := by
  obtain ⟨first, rest, windows⟩ := List.exists_cons_of_ne_nil formed.windows_ne_nil
  have window := formed.windows 0 first (by rw [windows]; rfl)
  obtain ⟨pane, further, panes⟩ := List.exists_cons_of_ne_nil window.panes_ne_nil
  have index := window.index
  rw [Int.natCast_zero, Int.add_zero] at index
  rw [filter_schedule (.inl rfl), windows,
    flatMap_windows fun w first => (pl.windowSchedule w first).filter (·.role = .create)]
  simp only [filter_windowSchedule (.inl rfl : Making .create)]
  simp [panes, opening, Group.place, index]

/-- Every further pane has one group that makes it, in the order of declaration. -/
theorem split_places (formed : pl.project.WellFormed home) :
    ((pl.schedule startup).filter (·.role = .split)).map Group.place =
      (pl.project.windows.flatMap places).tail := by
  obtain ⟨first, rest, windows⟩ := List.exists_cons_of_ne_nil formed.windows_ne_nil
  have window := formed.windows 0 first (by rw [windows]; rfl)
  have some_pane : places first ≠ [] := by simpa [places] using window.panes_ne_nil
  rw [filter_schedule (.inr (.inl rfl)), windows,
    flatMap_windows fun w first => (pl.windowSchedule w first).filter (·.role = .split)]
  simp only [filter_windowSchedule (.inr (.inl rfl) : Making .split)]
  simp only [if_true, reduceCtorEq, if_false, Bool.false_eq_true, List.nil_append, List.append_nil,
    List.map_append, map_place_splitting, List.map_flatMap, List.flatMap_cons,
    List.tail_append_of_ne_nil some_pane]
  congr 1
  refine List.flatMap_congr fun w member => ?_
  have known : w ∈ pl.project.windows := by rw [windows]; exact List.mem_cons_of_mem _ member
  obtain ⟨number, other⟩ := formed.window known
  exact map_place_opening other false

theorem layout_groups :
    (pl.schedule startup).filter (·.role = .layout) =
      pl.project.windows.flatMap fun w => w.layout.toList.map fun layout =>
        ⟨.layout, [.selectLayout (pl.windowAt w) layout], some w.index, none⟩ := by
  have other (first : Bool) : (if first then Role.create else .split) ≠ .layout := by
    cases first <;> decide
  rw [filter_schedule (.inr (.inr rfl))]
  simp only [filter_windowSchedule (.inr (.inr rfl) : Making .layout), if_neg (other _), if_true,
    reduceCtorEq, if_false, List.nil_append]
  conv => rhs; rw [← List.zipIdx_map_fst 0 pl.project.windows, List.flatMap_map]

/-! ### Typed lines -/

theorem typed_typeLine (target : PaneTarget) (lines : List String) :
    (lines.map (.typeLine target)).filterMap Command.typed? =
      lines.map fun line => (target, line) := by
  rw [List.filterMap_map]
  exact congrFun (List.filterMap_eq_map (f := fun line => (target, line))) lines

theorem typed_runShell (hooks : List String) :
    (hooks.map .runShell).filterMap Command.typed? = [] := by
  rw [List.filterMap_map]
  exact List.filterMap_eq_nil_iff.mpr fun _ _ => rfl

theorem typed_titling (target : PaneTarget) (pane : Pane) :
    (titling target pane).filterMap Command.typed? = [] := by
  cases named : pane.name <;> simp [titling, named, Command.typed?]

theorem typed_paneSchedule (pl : Planner) (w : Window) (pane : Pane) (j : Nat) :
    ((pl.paneSchedule w pane j).flatMap Group.commands).filterMap Command.typed? =
      (pl.project.paneCommands ++ w.paneCommands ++ pane.commands).map fun c =>
        (pl.paneAt w (pl.live w j), pl.paneLine w (pl.live w j) c) := by
  have clearing (target : PaneTarget) : (if pane.clear then [Command.clearScreen target] else
      []).filterMap Command.typed? = [] := by
    cases pane.clear <;> rfl
  simp only [commands_paneSchedule, List.filterMap_append, typed_runShell, typed_typeLine,
    clearing, List.nil_append, List.append_nil]
  rw [List.map_map]
  rfl

theorem typed_windowSchedule {w : Window} {pane : Pane} {further : List Pane}
    (panes : w.panes = pane :: further) (first : Bool) :
    ((pl.windowSchedule w first).flatMap Group.commands).filterMap Command.typed? =
      w.panes.zipIdx.flatMap fun (pane, j) =>
        (pl.project.paneCommands ++ w.paneCommands ++ pane.commands).map fun c =>
          (pl.paneAt w (pl.live w j), pl.paneLine w (pl.live w j) c) := by
  have opened : (pl.opening w pane first).commands.filterMap Command.typed? = [] := by
    cases first <;>
      simp only [opening, if_true, Bool.false_eq_true, if_false, List.filterMap_append,
        List.filterMap_cons, List.filterMap_nil, Command.typed?, typed_titling, List.append_nil]
  have split : (((further.zipIdx 1).map fun (pane, j) => pl.splitting w pane j).flatMap
      Group.commands).filterMap Command.typed? = [] := by
    rw [List.filterMap_flatMap]
    refine List.flatMap_eq_nil_iff.mpr fun g member => ?_
    obtain ⟨⟨other, j⟩, -, rfl⟩ := List.mem_map.mp member
    simp only [splitting, List.filterMap_cons, Command.typed?, typed_titling]
  have arranged : ((w.layout.toList.map fun layout => (⟨.layout, [.selectLayout (pl.windowAt w)
      layout], some w.index, none⟩ : Group)).flatMap Group.commands).filterMap Command.typed? =
        [] := by
    cases found : w.layout <;> simp [Command.typed?]
  simp only [commands_windowSchedule panes, List.filterMap_append, opened, split, arranged,
    typed_runShell, List.nil_append, List.append_nil, List.flatMap_assoc]
  rw [List.filterMap_flatMap]
  simp only [typed_paneSchedule]

/-- Lines are typed pane by pane, and nowhere else. -/
theorem typed_schedule (formed : pl.project.WellFormed home) :
    ((pl.schedule startup).flatMap Group.commands).filterMap Command.typed? =
      pl.project.windows.flatMap fun w => w.panes.zipIdx.flatMap fun (pane, j) =>
        (pl.project.paneCommands ++ w.paneCommands ++ pane.commands).map fun c =>
          (pl.paneAt w (pl.live w j), pl.paneLine w (pl.live w j) c) := by
  have selected : (pl.selecting startup).commands.filterMap Command.typed? = [] := rfl
  have attached : (if pl.project.attach then [Command.attach pl.session] else []).filterMap
      Command.typed? = [] := by
    cases pl.project.attach <;> rfl
  simp only [commands_schedule, List.filterMap_append, selected, attached, typed_runShell,
    List.append_nil]
  rw [List.flatMap_assoc, List.filterMap_flatMap]
  conv => rhs; rw [← List.zipIdx_map_fst 0 pl.project.windows, List.flatMap_map]
  refine List.flatMap_congr ?_
  rintro ⟨w, i⟩ member
  obtain ⟨number, window⟩ := formed.window (List.fst_mem_of_mem_zipIdx member)
  obtain ⟨pane, further, panes⟩ := List.exists_cons_of_ne_nil window.panes_ne_nil
  exact typed_windowSchedule panes (i == 0)

end Planner
end SessionPlan
