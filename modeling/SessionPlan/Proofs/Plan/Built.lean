import SessionPlan.Proofs.Plan.Reading
import SessionPlan.Proofs.Plan.Simulation

/-! The session that a plan makes is the one that the project declares, on a multiplexer that
numbers tabs and terminals however it likes until it is told. -/
namespace SessionPlan
open Multiplexer

namespace Planner

/-- The terminal is the one that pane `j` of the window declares. Only the first pane comes with
its window; all others are split off, bare if a layout will arrange them. -/
structure IsTerminal (pl : Planner) (w : Window) (pane : Pane) (j : Nat) (t : Terminal) :
    Prop where
  serial : t.serial = j
  directory : t.directory =
    firstNonempty [pane.workingDir, w.workingDir, pl.project.workingDir]
  title : t.title = pane.name
  source : t.source = if j = 0 then none else some (w.source j)
  direction : t.direction =
    if j = 0 ∨ w.layout.isSome then none else some (pane.split.getD .horizontal)
  size : t.size = if j = 0 ∨ w.layout.isSome then none else some (pane.splitSize.getD "50%")
  strokes : t.strokes = pl.strokes w pane j

/-- The tab is the one that the window declares. No two of its terminals were made for the same
pane, and each is live where commands and hooks of its pane look for it. -/
structure IsTab (pl : Planner) (w : Window) (t : Tab) : Prop where
  index : t.index = w.index
  name : t.name = w.name
  base : t.base = pl.project.paneBaseIndex
  layout : t.layout = w.layout
  count : t.terminals.length = w.panes.length
  distinct : (t.terminals.map Terminal.serial).Nodup
  panes : ∀ (j : Nat) (pane : Pane), w.panes[j]? = some pane →
    ∃ (k : Nat) (terminal : Terminal), t.terminals[k]? = some terminal ∧
      pl.live w j = pl.project.paneBaseIndex + k ∧ pl.IsTerminal w pane j terminal

/-- The session is the one that the project declares, and `ran` are its hooks in order. -/
structure IsSession (pl : Planner) (x : Session) (ran : List String) : Prop where
  name : x.name = pl.session
  base : x.base = pl.project.windowBaseIndex
  count : x.tabs.length = pl.project.windows.length
  windows : ∀ (i : Nat) (w : Window), pl.project.windows[i]? = some w →
    ∃ t, x.tabs[i]? = some t ∧ t.index = pl.project.windowBaseIndex + i ∧ pl.IsTab w t
  startup : ∃ (startup : Window) (t : Tab),
    pl.project.window? pl.project.startupWindow = some startup ∧ t ∈ x.tabs ∧
      t.index = startup.index ∧ x.current = startup.index ∧
      t.active = startupPosition pl.project
  hooks : ran = pl.project.windows.flatMap pl.windowRan ++
    pl.project.postCreate.map pl.sessionLine

theorem isTerminal_typedInto {home : String} {number : Int} {pl : Planner} {w : Window}
    (formed : w.WellFormed home number pl.project.paneBaseIndex) {pane : Pane} {j : Nat}
    (declared : w.panes[j]? = some pane) : pl.IsTerminal w pane j (pl.typedInto w j) := by
  have own : w.pane j = pane := pane_eq declared
  exact {
    serial := rfl
    directory := by rw [← own]; rfl
    title := by rw [← own]; rfl
    source := rfl
    direction := by
      simp only [typedInto, made, untitled, own, formed.splitDirection_eq]
      by_cases first : j = 0 <;> simp [first]
    size := by
      simp only [typedInto, made, untitled, own, formed.splitSize_eq declared]
      by_cases first : j = 0 <;> simp [first]
    strokes := by rw [← own]; rfl }

theorem isTab_tab {home : String} {number : Int} {pl : Planner} {w : Window}
    (formed : w.WellFormed home number pl.project.paneBaseIndex) (sourced : w.Sourced) :
    pl.IsTab w (pl.tab w) where
  index := rfl
  name := rfl
  base := rfl
  layout := rfl
  count := by
    have some_pane := List.length_pos_of_ne_nil formed.panes_ne_nil
    simp only [tab, tabOf, List.length_map, Window.length_liveOrder sourced]
    omega
  distinct := by
    have serials : (pl.tab w).terminals.map Terminal.serial = w.liveOrder (w.panes.length - 1) := by
      rw [tab, tabOf, List.map_map]
      exact List.map_id _
    rw [serials]
    exact Window.nodup_liveOrder sourced
  panes := by
    intro j pane declared
    obtain ⟨inside, -⟩ := List.getElem?_eq_some_iff.mp declared
    have known : j ∈ w.liveOrder (w.panes.length - 1) :=
      (Window.mem_liveOrder sourced).mpr (by omega)
    refine ⟨w.position j, pl.typedInto w j, ?_, rfl, isTerminal_typedInto formed declared⟩
    rw [tab, tabOf, List.getElem?_map, Window.position, List.getElem?_idxOf known]
    rfl

/-- Which terminal is active says nothing about how the tab was made. -/
theorem isTab_shown {home : String} {number : Int} {pl : Planner} {w : Window}
    (formed : w.WellFormed home number pl.project.paneBaseIndex) (sourced : w.Sourced)
    (startup : Window) : pl.IsTab w (pl.shown startup w) := by
  have whole := isTab_tab formed sourced
  by_cases here : w = startup
  · subst here
    rw [shown, if_pos rfl]
    exact { whole with }
  · rw [shown, if_neg here]
    exact whole

end Planner

/-- The lines of all groups, one after the other, are heard as the commands that they were written
for. These never address what is not there or take a number that is taken, and they make the session
that the project declares. -/
theorem Project.plan_makes_session {home : String} {wishes : Document.Wishes} {document : Tree}
    {p : Project} {override : Option String} {plan : Plan}
    (built : (Document.build home wishes document).result = .ok p)
    (planned : p.plan override = .ok plan) (config : Config) :
    (∀ c ∈ plan.groups.flatMap Group.commands, heard? c.text = some c) ∧
    ∃ x ran, runLines config {} ((plan.groups.flatMap Group.commands).map Command.text) =
        some ⟨some x, ran⟩ ∧
      (p.planner plan.sessionName plan.tmuxArgs).IsSession x ran := by
  have formed := Document.build_wellFormed built
  obtain ⟨startup, selected⟩ := formed.startup_selected
  obtain ⟨session, args, ready, sourced, -, rfl⟩ := (plan_eq_ok formed selected).mp planned
  have heard : ∀ c ∈ ((p.planner session args).schedule startup).flatMap Group.commands,
      heard? c.text = some c := Planner.heard?_schedule (formed.named ready) startup
  have done : run config {} (((p.planner session args).schedule startup).flatMap
      Group.commands) = _ := Planner.run_schedule formed sourced selected
  refine ⟨heard, _, _, (runLines_text heard).trans done, {
    name := rfl
    base := rfl
    count := List.length_map _
    windows := ?_
    startup := ?_
    hooks := rfl }⟩
  · intro i w found
    have window := formed.windows i w found
    refine ⟨(p.planner session args).shown startup w, ?_, ?_, Planner.isTab_shown window
      (sourced w (List.mem_of_getElem? found)) startup⟩
    · rw [List.getElem?_map]
      exact congrArg (Option.map _) found
    · rw [(Planner.isTab_shown window (sourced w (List.mem_of_getElem? found)) startup).index]
      exact window.index
  · refine ⟨startup, (p.planner session args).shown startup startup, selected,
      List.mem_map_of_mem (mem_of_window? selected), ?_, rfl, ?_⟩
    · rw [Planner.shown, if_pos rfl]
      rfl
    · rw [Planner.shown, if_pos rfl]

theorem Project.plan_makes_session_work :
    (∀ c ∈ workPlan.groups.flatMap Group.commands, heard? c.text = some c) ∧
    ∃ x ran, runLines ⟨7, 3, 5⟩ {} ((workPlan.groups.flatMap Group.commands).map Command.text) =
        some ⟨some x, ran⟩ ∧
      (workProject.planner "work" ["tmux"]).IsSession x ran :=
  plan_makes_session build_workDocument plan_workProject ⟨7, 3, 5⟩

end SessionPlan
