import SessionPlan.Proofs.Plan.Multiplexer
import SessionPlan.Proofs.Plan.Roles
import Mathlib.Data.List.Nodup

/-! What a multiplexer has made of a session, step by step along the schedule of its plan. -/
namespace SessionPlan
open Multiplexer

namespace Multiplexer

/-! ### One tab among others -/

theorem alterTab_last {before : List Tab} {t : Tab} {index : Int} (f : Tab → Option Tab)
    (fresh : ∀ u ∈ before, u.index ≠ index) (here : t.index = index) :
    alterTab index f (before ++ [t]) = (f t).map fun u => before ++ [u] := by
  induction before with
  | nil => simp [alterTab, here]
  | cons u rest ih =>
    have other : u.index ≠ index := fresh u List.mem_cons_self
    rw [List.cons_append, alterTab, if_neg other,
      ih fun v member => fresh v (List.mem_cons_of_mem _ member), Option.map_map]
    rfl

/-- Altering the tab of one member of a list, where no other has its number. -/
theorem alterTab_map {α : Type} [DecidableEq α] {items : List α} {g : α → Tab} {a : α}
    (f : Tab → Option Tab) {u : Tab} (member : a ∈ items) (altered : f (g a) = some u)
    (apart : ∀ b ∈ items, (g b).index = (g a).index → b = a) (distinct : items.Nodup) :
    alterTab (g a).index f (items.map g) = some (items.map fun b => if b = a then u else g b) := by
  induction items with
  | nil => cases member
  | cons b rest ih =>
    obtain ⟨absent, distinct⟩ := List.nodup_cons.mp distinct
    rw [List.map_cons, alterTab]
    by_cases same : b = a
    · subst same
      have others : rest.map (fun c => if c = b then u else g c) = rest.map g :=
        List.map_congr_left fun c known => if_neg fun (eq : c = b) => absent (eq ▸ known)
      simp [altered, others]
    · have elsewhere : (g b).index ≠ (g a).index := fun eq => same (apart b List.mem_cons_self eq)
      have known : a ∈ rest := (List.mem_cons.mp member).resolve_left (Ne.symm same)
      rw [if_neg elsewhere, ih known (fun c inside => apart c (List.mem_cons_of_mem _ inside))
        distinct]
      simp [same]

/-! ### Terminals by what they were declared as -/

theorem modify_idxOf_map {order : List Nat} {j : Nat} (distinct : order.Nodup) (live : j ∈ order)
    (f : Nat → Terminal) (g : Terminal → Terminal) :
    (order.map f).modify (order.idxOf j) g = order.map (Function.update f j (g (f j))) := by
  apply List.ext_getElem?
  intro k
  rw [List.getElem?_modify, List.getElem?_map, List.getElem?_map]
  by_cases here : order.idxOf j = k
  · subst here
    simp [List.getElem?_idxOf live]
  · cases found : order[k]? with
    | none => simp [here]
    | some i =>
      have other : i ≠ j := by
        rintro rfl
        obtain ⟨bound, rfl⟩ := List.getElem?_eq_some_iff.mp found
        exact here (distinct.idxOf_getElem k bound)
      simp [here, Function.update_of_ne other]

end Multiplexer

def Window.pane (w : Window) (j : Nat) : Pane := (w.panes[j]?).getD {}

namespace Planner

/-! ### What the plan makes -/

/-- The terminal of pane `j`, before it has a title. -/
def untitled (pl : Planner) (w : Window) (j : Nat) : Terminal where
  serial := j
  source := if j = 0 then none else some (w.source j)
  direction := if j = 0 then none else w.splitDirection (w.pane j)
  size := if j = 0 then none else w.splitSize (w.pane j)
  directory := pl.directory w (w.pane j)

def made (pl : Planner) (w : Window) (j : Nat) : Terminal :=
  { pl.untitled w j with title := (w.pane j).name }

def strokes (pl : Planner) (w : Window) (pane : Pane) (j : Nat) : List Stroke :=
  ((pl.project.paneCommands ++ w.paneCommands ++ pane.commands).map fun c =>
    .line (pl.paneLine w (pl.live w j) c)) ++ if pane.clear then [.clear] else []

def typedInto (pl : Planner) (w : Window) (j : Nat) : Terminal :=
  { pl.made w j with strokes := pl.strokes w (w.pane j) j }

/-- Hooks of pane `j` that are run before and after it is typed into. -/
def paneRan (pl : Planner) (w : Window) (pane : Pane) (j : Nat) : List String :=
  (pl.project.onPaneCreate ++ w.onPaneCreate ++ pane.onCreate).map (pl.paneLine w (pl.live w j)) ++
    (pl.project.postPaneCreate ++ w.postPaneCreate ++ pane.postCreate).map
      (pl.paneLine w (pl.live w j))

def windowRan (pl : Planner) (w : Window) : List String :=
  w.onCreate.map (pl.windowLine w) ++
    w.panes.zipIdx.flatMap (fun (pane, j) => pl.paneRan w pane j) ++
    w.postCreate.map (pl.windowLine w)

/-- The tab of a window with the terminals of its first panes, after `n` splits. -/
def tabOf (pl : Planner) (w : Window) (n : Nat) (layout : Option String) (f : Nat → Terminal) :
    Tab where
  index := w.index
  name := w.name
  base := pl.project.paneBaseIndex
  layout := layout
  terminals := (w.liveOrder n).map f
  active := n

/-- The server while the last of its tabs is worked on. -/
def stage (pl : Planner) (w : Window) (before : List Tab) (ran : List String) (t : Tab) :
    Server where
  session := some {
    name := pl.session
    base := pl.project.windowBaseIndex
    tabs := before ++ [t]
    current := w.index }
  ran := ran

variable {pl : Planner} {w : Window} {before : List Tab} {ran : List String} {n : Nat}
  {layout : Option String} {f : Nat → Terminal} {config : Config}

theorem inTab_stage (fresh : ∀ u ∈ before, u.index ≠ w.index) {t : Tab} (here : t.index = w.index)
    (g : Tab → Option Tab) :
    (pl.stage w before ran t).inTab (pl.windowAt w) g = (g t).map (pl.stage w before ran) := by
  simp only [Server.inTab, Server.within, stage, windowAt, Option.bind_eq_bind, Option.bind_some,
    if_true, alterTab_last g fresh here]
  cases g t <;> rfl

theorem place?_tabOf (sourced : w.SourcedTo n) {j : Nat} (live : j ≤ n) :
    (pl.tabOf w n layout f).place? (pl.project.paneBaseIndex + ((w.liveOrder n).idxOf j : Nat)) =
      some ((w.liveOrder n).idxOf j) := by
  have inside := List.idxOf_lt_length_of_mem ((Window.mem_liveOrder sourced).mpr live)
  rw [Tab.place?, if_pos]
  · simp only [tabOf, Option.some.injEq]
    omega
  · simp only [tabOf, List.length_map]
    omega

theorem inTerminal_stage (fresh : ∀ u ∈ before, u.index ≠ w.index) (sourced : w.SourcedTo n)
    {j : Nat} (live : j ≤ n) (g : Terminal → Terminal) :
    (pl.stage w before ran (pl.tabOf w n layout f)).inTerminal
        (pl.paneAt w (pl.project.paneBaseIndex + ((w.liveOrder n).idxOf j : Nat))) g =
      some (pl.stage w before ran (pl.tabOf w n layout (Function.update f j (g (f j))))) := by
  have modified := modify_idxOf_map (Window.nodup_liveOrder sourced)
    ((Window.mem_liveOrder sourced).mpr live) f g
  have altered : (pl.tabOf w n layout f).alter
      (pl.project.paneBaseIndex + ((w.liveOrder n).idxOf j : Nat)) g =
        some (pl.tabOf w n layout (Function.update f j (g (f j)))) := by
    rw [Tab.alter, place?_tabOf sourced live, Option.map_some]
    simp [tabOf, modified]
  rw [Server.inTerminal, paneAt, inTab_stage fresh rfl, altered]
  rfl

/-- A pane that has no name keeps the title that its terminal has: none. -/
theorem run_titling (fresh : ∀ u ∈ before, u.index ≠ w.index) (sourced : w.SourcedTo n)
    {j : Nat} (live : j ≤ n) {pane : Pane} (untitled : (f j).title = none) :
    run config (pl.stage w before ran (pl.tabOf w n layout f)) (titling
        (pl.paneAt w (pl.project.paneBaseIndex + ((w.liveOrder n).idxOf j : Nat))) pane) =
      some (pl.stage w before ran (pl.tabOf w n layout
        (Function.update f j { f j with title := pane.name }))) := by
  cases named : pane.name with
  | none =>
    have same : ({ f j with title := none } : Terminal) = f j := by rw [← untitled]
    simp [titling, named, run, same]
  | some title =>
    simp only [titling, named, Option.toList_some, List.map_cons, List.map_nil, run_single, step,
      inTerminal_stage fresh sourced live]

/-! ### Making a window -/

/-- The new tab learns from where its terminals are numbered, and its only terminal its title. -/
theorem run_numbering (fresh : ∀ u ∈ before, u.index ≠ w.index) :
    run config (pl.stage w before ran (newTab config w.index w.name (pl.directory w (w.pane 0))))
        (.setPaneBaseIndex (pl.windowAt w) pl.project.paneBaseIndex ::
          titling (pl.paneAt w pl.project.paneBaseIndex) (w.pane 0)) =
      some (pl.stage w before ran (pl.tabOf w 0 none (pl.made w))) := by
  have none_yet : w.SourcedTo 0 := fun j pos le => absurd le (by omega)
  have numbered : step config
      (pl.stage w before ran (newTab config w.index w.name (pl.directory w (w.pane 0))))
        (.setPaneBaseIndex (pl.windowAt w) pl.project.paneBaseIndex) =
      some (pl.stage w before ran (pl.tabOf w 0 none (pl.untitled w))) := by
    rw [step, inTab_stage fresh rfl]
    rfl
  have titled : run config (pl.stage w before ran (pl.tabOf w 0 none (pl.untitled w))) (titling
      (pl.paneAt w (pl.project.paneBaseIndex + ((w.liveOrder 0).idxOf 0 : Nat))) (w.pane 0)) =
        _ := run_titling fresh none_yet (Nat.le_refl 0) rfl
  have first : (w.liveOrder 0).idxOf 0 = 0 := rfl
  rw [first, Int.natCast_zero, Int.add_zero] at titled
  rw [run, numbered, Option.bind_some, titled]
  rfl

/-- The session is made with its first window, wherever the multiplexer puts that at first. -/
theorem run_opening_first (index : w.index = pl.project.windowBaseIndex) :
    run config {} (pl.opening w (w.pane 0) true).commands =
      some (pl.stage w [] [] (pl.tabOf w 0 none (pl.made w))) := by
  have created : run config {} [.newSession pl.session w.name (pl.directory w (w.pane 0)),
      .setBaseIndex pl.session pl.project.windowBaseIndex, .renumberWindows pl.session] =
        some (pl.stage w [] [] (newTab config w.index w.name (pl.directory w (w.pane 0)))) := by
    simp [run, step, Server.within, Session.renumber, Session.rank, stage, newTab, index]
  simp only [opening, if_true, run_append, created, Option.bind_some]
  exact run_numbering (by simp)

/-- Any further window takes a number that is free. -/
theorem run_opening_later {current : Int} (fresh : ∀ u ∈ before, u.index ≠ w.index) :
    run config ⟨some ⟨pl.session, pl.project.windowBaseIndex, before, current⟩, ran⟩
        (pl.opening w (w.pane 0) false).commands =
      some (pl.stage w before ran (pl.tabOf w 0 none (pl.made w))) := by
  have created : run config ⟨some ⟨pl.session, pl.project.windowBaseIndex, before, current⟩, ran⟩
      [.newWindow (pl.windowAt w) w.name (pl.directory w (w.pane 0))] =
        some (pl.stage w before ran
          (newTab config w.index w.name (pl.directory w (w.pane 0)))) := by
    rw [run_single]
    simp only [step, Server.within, windowAt, Option.bind_eq_bind, Option.bind_some, if_true]
    rw [Session.add_fresh fresh]
    rfl
  simp only [opening, Bool.false_eq_true, if_false, run_append, created, Option.bind_some]
  exact run_numbering fresh

theorem made_eq_update (pl : Planner) (w : Window) (j : Nat) :
    Function.update (Function.update (pl.made w) j (pl.untitled w j)) j (pl.made w j) =
      pl.made w := by
  rw [Function.update_idem, Function.update_eq_self]

/-- The tab is split where the plan says that the source is live. -/
theorem split_tabOf (sourced : w.SourcedTo (n + 1)) :
    (pl.tabOf w n layout (pl.made w)).split
        (pl.project.paneBaseIndex + (w.splitPosition (n + 1) : Nat))
        (w.splitDirection (w.pane (n + 1))) (w.splitSize (w.pane (n + 1)))
        (pl.directory w (w.pane (n + 1))) =
      some (pl.tabOf w (n + 1) layout
        (Function.update (pl.made w) (n + 1) (pl.untitled w (n + 1)))) := by
  have earlier := sourced.mono (Nat.le_succ n)
  have bound : w.source (n + 1) ≤ n := Nat.le_of_lt_succ (sourced _ n.succ_pos (Nat.le_refl _))
  have live : w.source (n + 1) ∈ w.liveOrder n := (Window.mem_liveOrder earlier).mpr bound
  have place : (pl.tabOf w n layout (pl.made w)).place? (pl.project.paneBaseIndex +
      ((w.liveOrder n).idxOf (w.source (n + 1)) : Nat)) = _ := place?_tabOf earlier bound
  have source : (pl.tabOf w n layout (pl.made w)).terminals[
      (w.liveOrder n).idxOf (w.source (n + 1))]? = some (pl.made w (w.source (n + 1))) := by
    simp [tabOf, List.getElem?_idxOf live]
  have absent : n + 1 ∉ w.liveOrder n := by
    rw [Window.mem_liveOrder earlier]; omega
  have others : (w.liveOrder n).map (Function.update (pl.made w) (n + 1) (pl.untitled w (n + 1))) =
      (w.liveOrder n).map (pl.made w) :=
    List.map_congr_left fun j known => Function.update_of_ne (by rintro rfl; exact absent known) _ _
  have order : (w.liveOrder (n + 1)).map
      (Function.update (pl.made w) (n + 1) (pl.untitled w (n + 1))) =
        ((w.liveOrder n).map (pl.made w)).insertIdx
          ((w.liveOrder n).idxOf (w.source (n + 1)) + 1) (pl.untitled w (n + 1)) := by
    rw [Window.liveOrder, List.map_insertIdx, others, Function.update_self]
  rw [Tab.split, Window.splitPosition, Nat.add_sub_cancel, place]
  simp only [Option.bind_eq_bind, Option.bind_some, source]
  simp only [tabOf, order, List.length_map, Window.length_liveOrder earlier]
  rfl

/-- One split: the terminals are in live order again, with one more pane. -/
theorem run_splitting (fresh : ∀ u ∈ before, u.index ≠ w.index) (sourced : w.SourcedTo (n + 1)) :
    run config (pl.stage w before ran (pl.tabOf w n layout (pl.made w)))
        (pl.splitting w (w.pane (n + 1)) (n + 1)).commands =
      some (pl.stage w before ran (pl.tabOf w (n + 1) layout (pl.made w))) := by
  have earlier := sourced.mono (Nat.le_succ n)
  have bound : w.source (n + 1) ≤ n := Nat.le_of_lt_succ (sourced _ n.succ_pos (Nat.le_refl _))
  have live : w.source (n + 1) ∈ w.liveOrder n := (Window.mem_liveOrder earlier).mpr bound
  have inside : (w.liveOrder n).idxOf (w.source (n + 1)) + 1 ≤ (w.liveOrder n).length :=
    List.idxOf_lt_length_of_mem live
  -- the new pane stands where its title is set
  have position : (w.liveOrder (n + 1)).idxOf (n + 1) = w.splitPosition (n + 1) + 1 := by
    have found : (w.liveOrder (n + 1))[w.splitPosition (n + 1) + 1]? = some (n + 1) := by
      rw [Window.liveOrder, Window.splitPosition, Nat.add_sub_cancel, List.getElem?_insertIdx_self,
        if_pos inside]
    obtain ⟨within, at_place⟩ := List.getElem?_eq_some_iff.mp found
    have first := (Window.nodup_liveOrder sourced).idxOf_getElem _ within
    rwa [at_place] at first
  have titled : run config (pl.stage w before ran (pl.tabOf w (n + 1) layout
      (Function.update (pl.made w) (n + 1) (pl.untitled w (n + 1))))) (titling (pl.paneAt w
        (pl.project.paneBaseIndex + ((w.liveOrder (n + 1)).idxOf (n + 1) : Nat)))
          (w.pane (n + 1))) = _ :=
    run_titling fresh sourced (Nat.le_refl (n + 1)) (by rw [Function.update_self]; rfl)
  rw [position, Function.update_self, Int.natCast_add, Int.natCast_one, ← Int.add_assoc] at titled
  rw [splitting, run, step, paneAt, inTab_stage fresh rfl, split_tabOf sourced,
    Option.map_some, Option.bind_some, titled]
  exact congrArg (fun f => some (pl.stage w before ran (pl.tabOf w (n + 1) layout f)))
    (made_eq_update pl w (n + 1))

theorem pane_eq {pane : Pane} {j : Nat} (declared : w.panes[j]? = some pane) : w.pane j = pane := by
  rw [Window.pane, declared]; rfl

/-- All splits of a window, in the order in which its panes are declared. -/
theorem run_splittings (fresh : ∀ u ∈ before, u.index ≠ w.index) {rest : List Pane}
    (remain : w.panes.drop (n + 1) = rest) (sourced : w.SourcedTo (n + rest.length)) :
    run config (pl.stage w before ran (pl.tabOf w n layout (pl.made w)))
        (((rest.zipIdx (n + 1)).map fun (pane, j) => pl.splitting w pane j).flatMap
          Group.commands) =
      some (pl.stage w before ran (pl.tabOf w (n + rest.length) layout (pl.made w))) := by
  induction rest generalizing n with
  | nil => rfl
  | cons pane rest ih =>
    have declared : w.panes[n + 1]? = some pane := by
      rw [← List.head?_drop, remain]; rfl
    have later : w.panes.drop (n + 1 + 1) = rest := by
      rw [← List.tail_drop, remain]; rfl
    have total : n + (pane :: rest).length = n + 1 + rest.length := by
      rw [List.length_cons]; omega
    rw [total] at sourced ⊢
    have one : run config (pl.stage w before ran (pl.tabOf w n layout (pl.made w)))
        (pl.splitting w (w.pane (n + 1)) (n + 1)).commands = _ :=
      run_splitting fresh (sourced.mono (Nat.le_add_right (n + 1) rest.length))
    rw [pane_eq declared] at one
    rw [List.zipIdx_cons, List.map_cons, List.flatMap_cons, run_append, one, Option.bind_some]
    exact ih later sourced

theorem run_arranging (fresh : ∀ u ∈ before, u.index ≠ w.index) :
    run config (pl.stage w before ran (pl.tabOf w n none f))
        ((w.layout.toList.map fun layout =>
          (⟨.layout, [.selectLayout (pl.windowAt w) layout], some w.index, none⟩ : Group)).flatMap
            Group.commands) =
      some (pl.stage w before ran (pl.tabOf w n w.layout f)) := by
  cases arranged : w.layout with
  | none => rfl
  | some layout =>
    simp only [Option.toList_some, List.map_cons, List.map_nil, List.flatMap_cons,
      List.flatMap_nil, List.append_nil, run_single, step]
    rw [inTab_stage fresh rfl]
    rfl

/-! ### Putting the panes to work -/

/-- Lines are typed where pane `j` is live. -/
theorem run_typing (fresh : ∀ u ∈ before, u.index ≠ w.index) (sourced : w.SourcedTo n)
    {j : Nat} (live : j ≤ n) (lines : List String) :
    run config (pl.stage w before ran (pl.tabOf w n layout f)) (lines.map (.typeLine
        (pl.paneAt w (pl.project.paneBaseIndex + ((w.liveOrder n).idxOf j : Nat))))) =
      some (pl.stage w before ran (pl.tabOf w n layout
        (Function.update f j { f j with strokes := (f j).strokes ++ lines.map .line }))) := by
  induction lines generalizing f with
  | nil => simp [run]
  | cons line rest ih =>
    rw [List.map_cons, run, step, inTerminal_stage fresh sourced live, Option.bind_some, ih]
    simp

theorem run_clearing (fresh : ∀ u ∈ before, u.index ≠ w.index) (sourced : w.SourcedTo n)
    {j : Nat} (live : j ≤ n) (clear : Bool) :
    run config (pl.stage w before ran (pl.tabOf w n layout f)) (if clear then [.clearScreen
        (pl.paneAt w (pl.project.paneBaseIndex + ((w.liveOrder n).idxOf j : Nat)))] else []) =
      some (pl.stage w before ran (pl.tabOf w n layout (Function.update f j
        { f j with strokes := (f j).strokes ++ if clear then [.clear] else [] }))) := by
  cases clear with
  | true => simp [run_single, step, inTerminal_stage fresh sourced live]
  | false => simp [run]

/-- Terminals of a window of which the first `m` panes have been put to work. -/
def working (pl : Planner) (w : Window) (m : Nat) (j : Nat) : Terminal :=
  if j < m then pl.typedInto w j else pl.made w j

theorem working_succ (pl : Planner) (w : Window) (m : Nat) :
    Function.update (pl.working w m) m (pl.typedInto w m) = pl.working w (m + 1) := by
  funext j
  by_cases here : j = m
  · subst here
    simp [working]
  · rw [Function.update_of_ne here]
    have same : j < m + 1 ↔ j < m := by omega
    simp [working, same]

theorem run_hooks (hooks : List String) {t : Tab} :
    run config (pl.stage w before ran t) (hooks.map .runShell) =
      some (pl.stage w before (ran ++ hooks) t) :=
  run_shell config _ hooks

theorem run_strokes (fresh : ∀ u ∈ before, u.index ≠ w.index) (sourced : w.SourcedTo n)
    {j : Nat} (live : j ≤ n) (lines : List String) (clear : Bool) :
    run config (pl.stage w before ran (pl.tabOf w n layout f))
        (lines.map (.typeLine
            (pl.paneAt w (pl.project.paneBaseIndex + ((w.liveOrder n).idxOf j : Nat)))) ++
          if clear then [.clearScreen
            (pl.paneAt w (pl.project.paneBaseIndex + ((w.liveOrder n).idxOf j : Nat)))]
          else []) =
      some (pl.stage w before ran (pl.tabOf w n layout (Function.update f j { f j with
        strokes := (f j).strokes ++ (lines.map .line ++ if clear then [.clear] else []) }))) := by
  rw [run_append, run_typing fresh sourced live, Option.bind_some, run_clearing fresh sourced live]
  simp

theorem run_pane {m : Nat} (fresh : ∀ u ∈ before, u.index ≠ w.index) (sourced : w.Sourced)
    (inside : m < w.panes.length) :
    run config (pl.stage w before ran
          (pl.tabOf w (w.panes.length - 1) layout (pl.working w m)))
        ((pl.paneSchedule w (w.pane m) m).flatMap Group.commands) =
      some (pl.stage w before (ran ++ pl.paneRan w (w.pane m) m)
        (pl.tabOf w (w.panes.length - 1) layout (pl.working w (m + 1)))) := by
  have live : m ≤ w.panes.length - 1 := by omega
  have idle : pl.working w m m = pl.made w m := by simp [working]
  have typed (ran : List String) : run config (pl.stage w before ran
      (pl.tabOf w (w.panes.length - 1) layout (pl.working w m))) _ = _ :=
    run_strokes fresh sourced live ((pl.project.paneCommands ++ w.paneCommands ++
      (w.pane m).commands).map (pl.paneLine w (pl.live w m))) (w.pane m).clear
  have shown : Function.update (pl.working w m) m { pl.working w m m with
      strokes := (pl.working w m m).strokes ++ (((pl.project.paneCommands ++ w.paneCommands ++
        (w.pane m).commands).map (pl.paneLine w (pl.live w m))).map .line ++
          if (w.pane m).clear then [.clear] else []) } = pl.working w (m + 1) := by
    rw [idle, ← working_succ, List.map_map]
    rfl
  rw [shown, ← Window.position, ← Planner.live] at typed
  rw [commands_paneSchedule, run_append, run_append, run_hooks, Option.bind_some, typed,
    Option.bind_some, run_hooks, List.append_assoc, paneRan]

theorem run_panes {m : Nat} {rest : List Pane} (fresh : ∀ u ∈ before, u.index ≠ w.index)
    (sourced : w.Sourced) (remain : w.panes.drop m = rest) :
    run config (pl.stage w before ran
          (pl.tabOf w (w.panes.length - 1) layout (pl.working w m)))
        (((rest.zipIdx m).flatMap fun (pane, j) => pl.paneSchedule w pane j).flatMap
          Group.commands) =
      some (pl.stage w before
        (ran ++ (rest.zipIdx m).flatMap fun (pane, j) => pl.paneRan w pane j)
        (pl.tabOf w (w.panes.length - 1) layout (pl.working w (m + rest.length)))) := by
  induction rest generalizing m ran with
  | nil => simp [run]
  | cons pane rest ih =>
    have declared : w.panes[m]? = some pane := by
      rw [← List.head?_drop, remain]; rfl
    have later : w.panes.drop (m + 1) = rest := by
      rw [← List.tail_drop, remain]; rfl
    have one : run config (pl.stage w before ran (pl.tabOf w (w.panes.length - 1) layout
        (pl.working w m))) ((pl.paneSchedule w (w.pane m) m).flatMap Group.commands) = _ :=
      run_pane fresh sourced (List.getElem?_eq_some_iff.mp declared).1
    rw [pane_eq declared] at one
    have total : m + (pane :: rest).length = m + 1 + rest.length := by
      rw [List.length_cons]; omega
    rw [List.zipIdx_cons, List.flatMap_cons, List.flatMap_append, run_append, one,
      Option.bind_some, ih later, total, List.flatMap_cons, List.append_assoc]

/-- The tab of a window when all is done that its groups do. -/
def tab (pl : Planner) (w : Window) : Tab :=
  pl.tabOf w (w.panes.length - 1) w.layout (pl.typedInto w)

theorem tab_eq (sourced : w.Sourced) (ne_nil : w.panes ≠ []) :
    pl.tabOf w (w.panes.length - 1) w.layout (pl.working w w.panes.length) = pl.tab w := by
  have some_pane := List.length_pos_of_ne_nil ne_nil
  have all : (w.liveOrder (w.panes.length - 1)).map (pl.working w w.panes.length) =
      (w.liveOrder (w.panes.length - 1)).map (pl.typedInto w) := by
    refine List.map_congr_left fun j known => if_pos ?_
    have bound := (Window.mem_liveOrder sourced).mp known
    omega
  simp only [tab, tabOf, all]

/-- What a window's groups do once it is there: split, arrange, and put to work. -/
theorem run_furnishing (fresh : ∀ u ∈ before, u.index ≠ w.index) (sourced : w.Sourced)
    {pane : Pane} {further : List Pane} (panes : w.panes = pane :: further) (first : Bool)
    {s : Server} (opened : run config s (pl.opening w pane first).commands =
      some (pl.stage w before ran (pl.tabOf w 0 none (pl.made w)))) :
    run config s ((pl.windowSchedule w first).flatMap Group.commands) =
      some (pl.stage w before (ran ++ pl.windowRan w) (pl.tab w)) := by
  have count : w.panes.length - 1 = 0 + further.length := by simp [panes]
  have remain : w.panes.drop 1 = further := by rw [panes]; rfl
  have sourcedTo : w.SourcedTo (0 + further.length) := by rwa [← count]
  have split : run config (pl.stage w before ran (pl.tabOf w 0 none (pl.made w))) _ = _ :=
    run_splittings fresh remain sourcedTo
  have unworked : pl.working w 0 = pl.made w := funext fun j => if_neg (Nat.not_lt_zero j)
  have put (ran : List String) : run config (pl.stage w before ran
      (pl.tabOf w (w.panes.length - 1) w.layout (pl.working w 0))) _ = _ :=
    run_panes fresh sourced List.drop_zero
  rw [unworked, Nat.zero_add, tab_eq sourced (by simp [panes])] at put
  rw [commands_windowSchedule panes, run_append, opened, Option.bind_some, run_append, split,
    Option.bind_some, run_append, run_arranging fresh, Option.bind_some, run_append, run_hooks,
    Option.bind_some, run_append, ← count, put, Option.bind_some, run_hooks, windowRan]
  simp only [List.append_assoc]

/-! ### All windows -/

/-- The server between two windows. -/
def standing (pl : Planner) (done : List Window) (current : Int) (ran : List String) : Server where
  session := some {
    name := pl.session
    base := pl.project.windowBaseIndex
    tabs := done.map pl.tab
    current := current }
  ran := ran

theorem stage_eq_standing (pl : Planner) (done : List Window) (w : Window) (ran : List String) :
    pl.stage w (done.map pl.tab) ran (pl.tab w) = pl.standing (done ++ [w]) w.index ran := by
  simp [stage, standing]

theorem run_window_first (index : w.index = pl.project.windowBaseIndex) (sourced : w.Sourced)
    (ne_nil : w.panes ≠ []) :
    run config {} ((pl.windowSchedule w true).flatMap Group.commands) =
      some (pl.standing [w] w.index (pl.windowRan w)) := by
  obtain ⟨pane, further, panes⟩ := List.exists_cons_of_ne_nil ne_nil
  have opened : run config {} (pl.opening w (w.pane 0) true).commands = _ :=
    run_opening_first index
  rw [pane_eq (by rw [panes]; rfl : w.panes[0]? = some pane)] at opened
  exact run_furnishing (by simp) sourced panes true opened

theorem run_window_later {done : List Window} {current : Int}
    (fresh : ∀ v ∈ done, v.index ≠ w.index) (sourced : w.Sourced) (ne_nil : w.panes ≠ []) :
    run config (pl.standing done current ran)
        ((pl.windowSchedule w false).flatMap Group.commands) =
      some (pl.standing (done ++ [w]) w.index (ran ++ pl.windowRan w)) := by
  obtain ⟨pane, further, panes⟩ := List.exists_cons_of_ne_nil ne_nil
  have fresh_tab : ∀ u ∈ done.map pl.tab, u.index ≠ w.index := by
    simpa [tab, tabOf] using fresh
  have opened : run config (pl.standing done current ran)
      (pl.opening w (w.pane 0) false).commands = _ := run_opening_later fresh_tab
  rw [pane_eq (by rw [panes]; rfl : w.panes[0]? = some pane)] at opened
  rw [← stage_eq_standing]
  exact run_furnishing fresh_tab sourced panes false opened

theorem run_windows_later {done rest : List Window} {i : Nat} {current : Int}
    (distinct : ((done ++ rest).map Window.index).Nodup) (sourced : ∀ w ∈ rest, w.Sourced)
    (ne_nil : ∀ w ∈ rest, w.panes ≠ []) :
    ∃ last, run config (pl.standing done current ran)
        (((rest.zipIdx (i + 1)).flatMap fun (w, i) => pl.windowSchedule w (i == 0)).flatMap
          Group.commands) =
      some (pl.standing (done ++ rest) last (ran ++ rest.flatMap pl.windowRan)) := by
  induction rest generalizing done i current ran with
  | nil => exact ⟨current, by simp [run]⟩
  | cons w rest ih =>
    have fresh : ∀ v ∈ done, v.index ≠ w.index := by
      intro v member same
      rw [List.map_append] at distinct
      exact List.disjoint_of_nodup_append distinct (List.mem_map_of_mem member)
        (List.mem_map.mpr ⟨w, List.mem_cons_self, same.symm⟩)
    have one : run config (pl.standing done current ran) _ = _ :=
      run_window_later fresh (sourced w List.mem_cons_self) (ne_nil w List.mem_cons_self)
    rw [← List.singleton_append, ← List.append_assoc] at distinct
    obtain ⟨last, all⟩ : ∃ last, run config
        (pl.standing (done ++ [w]) w.index (ran ++ pl.windowRan w))
        (((rest.zipIdx (i + 1 + 1)).flatMap fun (w, i) => pl.windowSchedule w (i == 0)).flatMap
          Group.commands) = _ :=
      ih distinct (fun v member => sourced v (List.mem_cons_of_mem _ member))
        fun v member => ne_nil v (List.mem_cons_of_mem _ member)
    refine ⟨last, ?_⟩
    have further : (i + 1 == 0) = false := rfl
    rw [List.zipIdx_cons, List.flatMap_cons, List.flatMap_append, run_append]
    simp only [further, one, Option.bind_some, all, List.flatMap_cons, List.append_assoc,
      List.singleton_append]

end Planner

theorem Project.WellFormed.indices_nodup {home : String} {p : Project}
    (formed : p.WellFormed home) : (p.windows.map Window.index).Nodup := by
  have numbered : p.windows.map Window.index =
      (List.range p.windows.length).map fun (i : Nat) => p.windowBaseIndex + i := by
    apply List.ext_getElem (by simp)
    intro i inside _
    have found : p.windows[i]? = some _ := List.getElem?_eq_getElem (by simpa using inside)
    simpa using (formed.windows i _ found).index
  rw [numbered]
  refine List.Nodup.map (fun i k same => ?_) List.nodup_range
  omega

namespace Planner

variable {pl : Planner} {ran : List String} {config : Config}

theorem run_windows {home : String} (formed : pl.project.WellFormed home)
    (sourced : ∀ w ∈ pl.project.windows, w.Sourced) :
    ∃ last, run config {} ((pl.project.windows.zipIdx.flatMap fun (w, i) =>
        pl.windowSchedule w (i == 0)).flatMap Group.commands) =
      some (pl.standing pl.project.windows last (pl.project.windows.flatMap pl.windowRan)) := by
  have ne_nil (w : Window) (member : w ∈ pl.project.windows) : w.panes ≠ [] :=
    (formed.window member).choose_spec.panes_ne_nil
  have distinct := formed.indices_nodup
  obtain ⟨first, rest, windows⟩ := List.exists_cons_of_ne_nil formed.windows_ne_nil
  have index : first.index = pl.project.windowBaseIndex := by
    simpa using (formed.windows 0 first (by rw [windows]; rfl)).index
  rw [windows] at sourced ne_nil distinct
  have opened : run config {} _ = _ := run_window_first index (sourced first List.mem_cons_self)
    (ne_nil first List.mem_cons_self)
  obtain ⟨last, all⟩ : ∃ last, run config
      (pl.standing [first] first.index (pl.windowRan first))
      (((rest.zipIdx (0 + 1)).flatMap fun (w, i) => pl.windowSchedule w (i == 0)).flatMap
        Group.commands) = _ :=
    run_windows_later distinct (fun w member => sourced w (List.mem_cons_of_mem _ member))
      fun w member => ne_nil w (List.mem_cons_of_mem _ member)
  refine ⟨last, ?_⟩
  rw [windows, List.zipIdx_cons, List.flatMap_cons, List.flatMap_append, run_append]
  simp only [BEq.rfl, opened, Option.bind_some, all, List.flatMap_cons, List.singleton_append]

/-- The tab of a window, with the pane active that the session shows first. -/
def shown (pl : Planner) (startup w : Window) : Tab :=
  if w = startup then { pl.tab startup with active := startupPosition pl.project } else pl.tab w

theorem activate_tab {w : Window} {j : Nat} (sourced : w.Sourced) (declared : j < w.panes.length) :
    (pl.tab w).activate (pl.live w j) = some { pl.tab w with active := j } := by
  have bound : j ≤ w.panes.length - 1 := by omega
  have known := (Window.mem_liveOrder sourced).mpr bound
  have terminal : (pl.tab w).terminals[(w.liveOrder (w.panes.length - 1)).idxOf j]? =
      some (pl.typedInto w j) := by
    simp [tab, tabOf, List.getElem?_idxOf known]
  rw [Tab.activate, live, Window.position, tab, place?_tabOf sourced bound, ← tab]
  simp only [Option.bind_eq_bind, Option.bind_some, terminal]
  rfl

theorem run_selecting {home : String} (formed : pl.project.WellFormed home)
    (sourced : ∀ w ∈ pl.project.windows, w.Sourced) {startup : Window}
    (selected : pl.project.window? pl.project.startupWindow = some startup) (current : Int) :
    run config (pl.standing pl.project.windows current ran) (pl.selecting startup).commands =
      some ⟨some ⟨pl.session, pl.project.windowBaseIndex,
        pl.project.windows.map (pl.shown startup), startup.index⟩, ran⟩ := by
  have member := Project.mem_of_window? selected
  obtain ⟨-, pane, declared, -⟩ := formed.startupPane_declared selected
  have activated : (pl.tab startup).activate (pl.live startup (startupPosition pl.project)) = _ :=
    activate_tab (sourced startup member) (List.getElem?_eq_some_iff.mp declared).1
  have there : ∃ t ∈ pl.project.windows.map pl.tab, t.index = startup.index :=
    ⟨pl.tab startup, List.mem_map_of_mem member, rfl⟩
  have altered : alterTab startup.index
      (fun t => t.activate (pl.live startup (startupPosition pl.project)))
        (pl.project.windows.map pl.tab) = some (pl.project.windows.map (pl.shown startup)) :=
    alterTab_map (g := pl.tab)
      (fun t => t.activate (pl.live startup (startupPosition pl.project))) member activated
      (fun w inside same => formed.index_injective w inside startup member same)
      (List.Nodup.of_map _ formed.indices_nodup)
  have chosen : step config (pl.standing pl.project.windows current ran)
      (.selectWindow (pl.windowAt startup)) =
        some (pl.standing pl.project.windows startup.index ran) :=
    Server.choose_of_mem rfl there
  have focused : step config (pl.standing pl.project.windows startup.index ran)
      (.selectPane (pl.paneAt startup (pl.live startup (startupPosition pl.project)))) =
        some ⟨some ⟨pl.session, pl.project.windowBaseIndex,
          pl.project.windows.map (pl.shown startup), startup.index⟩, ran⟩ := by
    simp only [step, Server.inTab, Server.within, standing, paneAt, windowAt,
      Option.bind_eq_bind, Option.bind_some, if_true, altered]
    rfl
  rw [selecting, run, chosen, Option.bind_some, run_single, focused]

/-- The multiplexer follows the whole schedule without a failure. -/
theorem run_schedule {home : String} (formed : pl.project.WellFormed home)
    (sourced : ∀ w ∈ pl.project.windows, w.Sourced) {startup : Window}
    (selected : pl.project.window? pl.project.startupWindow = some startup) :
    run config {} ((pl.schedule startup).flatMap Group.commands) =
      some ⟨some ⟨pl.session, pl.project.windowBaseIndex,
          pl.project.windows.map (pl.shown startup), startup.index⟩,
        pl.project.windows.flatMap pl.windowRan ++
          pl.project.postCreate.map pl.sessionLine⟩ := by
  obtain ⟨last, built⟩ : ∃ last, run config {} _ = _ := run_windows formed sourced
  have hooked (hooks : List String) (ran : List String) :
      run config (pl.standing pl.project.windows last ran) (hooks.map .runShell) =
        some (pl.standing pl.project.windows last (ran ++ hooks)) := run_shell config _ hooks
  rw [commands_schedule, run_append, built, Option.bind_some, run_append, hooked,
    Option.bind_some, run_append, run_selecting formed sourced selected, Option.bind_some]
  cases pl.project.attach with
  | false => rfl
  | true => simp [run_single, step, Server.within]

end Planner
end SessionPlan
