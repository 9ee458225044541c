import SessionPlan.Proofs.Document.RoundTrip
import SessionPlan.Proofs.Plan.Placeholders
import SessionPlan.Proofs.Plan.Roles
import SessionPlan.Proofs.Run.Compile
import SessionPlan.Proofs.Snapshot.Frozen

/-! A live session that is frozen, written and compiled again: which windows and panes are made,
how they are arranged, and what is typed into them. -/
namespace SessionPlan

/-- The foreground command that has to be typed again: that of a shell has not. -/
def LivePane.foreground (shells : List String) (p : LivePane) : Option String :=
  p.command.filter fun c => !c.isEmpty && !shells.contains (LivePane.programName c)

theorem LivePane.typed_eq (shells : List String) (p : LivePane) :
    p.typed shells = (p.foreground shells).toList.map Document.commandLine := by
  unfold LivePane.typed LivePane.foreground
  cases p.command with
  | none => rfl
  | some c =>
    by_cases blank : c = ""
    · simp [Option.filter, blank]
    · by_cases idle : LivePane.programName c ∈ shells <;> simp [Option.filter, blank, idle]

namespace Snapshot

/-- Window `i` and its pane `j` as they are numbered in the new session. -/
def windowTarget (s : Snapshot) (i : Nat) : WindowTarget := ⟨s.sessionName, s.windowBase + i⟩

def paneTarget (s : Snapshot) (i j : Nat) : PaneTarget := ⟨s.windowTarget i, s.paneBase + j⟩

/-- The words by which they are found there. -/
def windowWord (s : Snapshot) (i : Nat) : String :=
  s.sessionName ++ ":" ++ (s.windowBase + i).repr

def paneWord (s : Snapshot) (i j : Nat) : String :=
  s.windowWord i ++ "." ++ (s.paneBase + j).repr

/-- What the placeholders stand for in a command that is typed into pane `j` of window `i`. -/
def scope (s : Snapshot) (i j : Nat) : Scope :=
  ⟨"tmux", s.sessionName, some (s.windowWord i), some (s.paneWord i j)⟩

/-- The indices of all windows and panes in the new session. -/
def numbers (s : Snapshot) : List Int :=
  s.windows.zipIdx.flatMap fun (w, i) =>
    (s.windowBase + i) :: w.panes.zipIdx.map fun (_, j) => s.paneBase + j

/-- All panes, as groups are tagged with them, window by window. -/
def places (s : Snapshot) : List (Option Int × Option Int) :=
  s.windows.zipIdx.flatMap fun (w, i) => w.panes.zipIdx.map fun (_, j) =>
    (some (s.windowBase + i), some (s.paneBase + j))

/-- One group for every window that has a layout. -/
def layoutGroups (s : Snapshot) : List Group :=
  s.windows.zipIdx.flatMap fun (w, i) => w.layout.toList.map fun layout =>
    ⟨.layout, [.selectLayout (s.windowTarget i) layout], some (s.windowBase + i), none⟩

/-- One line for every pane with a foreground command. -/
def typedLines (s : Snapshot) (shells : List String) : List (PaneTarget × String) :=
  s.windows.zipIdx.flatMap fun (w, i) => w.panes.zipIdx.flatMap fun (pane, j) =>
    (pane.foreground shells).toList.map fun c =>
      (s.paneTarget i j, (s.scope i j).fill (Document.commandLine c))

theorem flatMap_zipIdx_map {α β γ : Type} (g : α × Nat → β) (f : β × Nat → List γ) (list : List α)
    (n : Nat) :
    (((list.zipIdx n).map g).zipIdx n).flatMap f =
      (list.zipIdx n).flatMap fun p => f (g p, p.2) := by
  induction list generalizing n with
  | nil => rfl
  | cons a rest ih => simp [List.zipIdx_cons, ih]

variable {s : Snapshot} {shells : List String}

theorem places_project :
    (s.project shells).windows.flatMap Planner.places = s.places := by
  rw [windows_project, List.flatMap_map]
  refine List.flatMap_congr ?_
  rintro ⟨w, i⟩ -
  simp only [Planner.places, panes_frozenWindow, List.map_map]
  rfl

theorem length_places : s.places.length = (s.windows.flatMap (·.panes)).length := by
  conv => rhs; rw [← List.zipIdx_map_fst 0 s.windows, List.flatMap_map]
  simp only [places, List.length_flatMap, List.length_map, List.length_zipIdx]

theorem indexes_project : (s.project shells).indexes = s.numbers := by
  rw [Project.indexes, windows_project, List.flatMap_map]
  refine List.flatMap_congr ?_
  rintro ⟨w, i⟩ -
  simp only [panes_frozenWindow, List.map_map]
  rfl

theorem live_project {pl : Planner} (project : pl.project = s.project shells) {w : Window}
    (member : w ∈ (s.project shells).windows) {j : Nat} (inside : j < w.panes.length) :
    pl.live w j = s.paneBase + j := by
  obtain ⟨-, order⟩ := Window.liveOrder_of_unnamed
    (fun pane declared => (mem_project_panes member pane declared).1) (w.panes.length - 1)
  have place : w.position j = j := by
    have bound : j < (List.range (w.panes.length - 1 + 1)).length := by
      rw [List.length_range]; omega
    have found := List.nodup_range.idxOf_getElem j bound
    rw [List.getElem_range] at found
    rw [Window.position, order, found]
  rw [Planner.live, place, project]
  rfl

theorem typed_project {pl : Planner} (project : pl.project = s.project shells)
    (session : pl.session = s.sessionName) (tmux : pl.tmux = "tmux") :
    ((s.project shells).windows.flatMap fun w => w.panes.zipIdx.flatMap fun (pane, j) =>
      ((s.project shells).paneCommands ++ w.paneCommands ++ pane.commands).map fun c =>
        (pl.paneAt w (pl.live w j), pl.paneLine w (pl.live w j) c)) = s.typedLines shells := by
  have numbered {w : Window} (member : w ∈ (s.project shells).windows) {j : Nat}
      (inside : j < w.panes.length) := live_project project member inside
  rw [windows_project] at numbered ⊢
  rw [List.flatMap_map]
  refine List.flatMap_congr ?_
  rintro ⟨w, i⟩ member
  have panes := s.panes_frozenWindow shells i w
  have known := List.mem_map_of_mem (f := fun (w, i) => s.frozenWindow shells i w) member
  dsimp only
  rw [panes, flatMap_zipIdx_map]
  refine List.flatMap_congr ?_
  rintro ⟨pane, j⟩ declared
  have live := numbered known (j := j) (by
    rw [panes, List.length_map, List.length_zipIdx]
    simpa using List.snd_lt_of_mem_zipIdx declared)
  have target : pl.paneAt (s.frozenWindow shells i w)
      (pl.live (s.frozenWindow shells i w) j) = s.paneTarget i j := by
    rw [live, Planner.paneAt, Planner.windowAt, session]
    rfl
  have line : pl.paneLine (s.frozenWindow shells i w)
      (pl.live (s.frozenWindow shells i w) j) = (s.scope i j).fill := by
    funext c
    rw [live, Planner.paneLine, Planner.windowLine, Planner.sessionLine, Planner.paneWord,
      Planner.windowWord, session, tmux]
    rfl
  have own : (s.project shells).paneCommands ++ (s.frozenWindow shells i w).paneCommands ++
      (freezePane shells (w.directory.or s.firstWindow.directory) (s.paneBase + j) pane).commands =
        (pane.foreground shells).toList.map Document.commandLine :=
    pane.typed_eq shells
  rw [target, line, own, List.map_map]
  rfl

theorem layout_project {pl : Planner} (session : pl.session = s.sessionName) :
    ((s.project shells).windows.flatMap fun w => w.layout.toList.map fun layout =>
      (⟨.layout, [.selectLayout (pl.windowAt w) layout], some w.index, none⟩ : Group)) =
      s.layoutGroups := by
  rw [windows_project, List.flatMap_map]
  refine List.flatMap_congr ?_
  rintro ⟨w, i⟩ -
  simp only [Planner.windowAt, session]
  rfl

theorem prerequisites_project (live : s.IsLive) :
    (s.project shells).prerequisites none = .ok (s.sessionName, ["tmux"]) := by
  have named : (s.project shells).session = .ok s.sessionName := by
    simp [Project.session, project, orNonempty, live.name.ne_empty]
  have called : Shell.split "tmux" = .ok ["tmux"] := eq_ok_of_toOption (by decide)
  have bare : Shell.split "" = .ok [] := eq_ok_of_toOption (by decide)
  have arguments : (s.project shells).tmuxArguments none = .ok ["tmux"] := by
    simp only [Project.tmuxArguments, Project.multiplexer, project, orNonempty, Option.getD_none,
      Project.commandLine, called, bare, ok_bind]
    rfl
  rw [Project.prerequisites, named, ok_bind, arguments]
  rfl

/-- What a plan has to do so that it makes the live session again. Commands are typed as they ran,
save that placeholders in them are filled in like in any other typed line. -/
structure IsRemadeBy (s : Snapshot) (shells : List String) (plan : Plan) : Prop where
  created : (plan.groups.filter (·.role = .create)).map Group.place =
    [(some s.windowBase, some s.paneBase)]
  split : (plan.groups.filter (·.role = .split)).map Group.place = s.places.tail
  splitCount : (plan.groups.filter (·.role = .split)).length =
    (s.windows.flatMap (·.panes)).length - 1
  arranged : plan.groups.filter (·.role = .layout) = s.layoutGroups
  typed : plan.typed = s.typedLines shells
  verbatim : ∀ (i j : Nat) (w : LiveWindow) (pane : LivePane) (c : String),
    s.windows[i]? = some w → w.panes[j]? = some pane → pane.foreground shells = some c →
      (s.scope i j).Leaves (Document.commandLine c) →
        (s.paneTarget i j, Document.commandLine c) ∈ plan.typed

theorem mem_typedLines {i j : Nat} {w : LiveWindow} {pane : LivePane} {c : String}
    (window : s.windows[i]? = some w) (declared : w.panes[j]? = some pane)
    (running : pane.foreground shells = some c) :
    (s.paneTarget i j, (s.scope i j).fill (Document.commandLine c)) ∈ s.typedLines shells := by
  refine List.mem_flatMap.mpr ⟨(w, i), List.mk_mem_zipIdx_iff_getElem?.mpr window, ?_⟩
  refine List.mem_flatMap.mpr ⟨(pane, j), List.mk_mem_zipIdx_iff_getElem?.mpr declared, ?_⟩
  dsimp only
  rw [running]
  exact List.mem_map_of_mem (List.mem_singleton_self c)

theorem isRemadeBy_schedule (live : s.IsLive) (startup : Window)
    (occasions : List (Occasion × List String)) :
    s.IsRemadeBy shells {
      sessionName := s.sessionName
      tmuxArgs := ["tmux"]
      groups := ((s.project shells).planner s.sessionName ["tmux"]).schedule startup
      occasions } := by
  have formed : (s.project shells).WellFormed "" := project_wellFormed live shells
  have tmux : ((s.project shells).planner s.sessionName ["tmux"]).tmux = "tmux" :=
    (by decide : Shell.joinWords ["tmux"] = "tmux")
  have split : (((s.project shells).planner s.sessionName ["tmux"]).schedule startup |>.filter
      (·.role = .split)).map Group.place = s.places.tail :=
    (Planner.split_places formed).trans (congrArg List.tail places_project)
  have typed : ((((s.project shells).planner s.sessionName ["tmux"]).schedule startup).flatMap
      Group.commands).filterMap Command.typed? = s.typedLines shells :=
    (Planner.typed_schedule formed).trans (typed_project rfl rfl tmux)
  exact {
    created := Planner.create_places formed
    split := split
    splitCount := by
      rw [← List.length_map (f := Group.place), split, List.length_tail, length_places]
    arranged := Planner.layout_groups.trans (layout_project rfl)
    typed := typed
    verbatim := by
      intro i j w pane c window declared running leaves
      have member := mem_typedLines window declared running
      rw [Scope.fill_of_leaves leaves, ← typed] at member
      exact member }

/-- The frozen project is planned if its indices can be written, and the plan makes the session
again. -/
theorem plan_project (live : s.IsLive) (shells : List String) :
    ∃ plan, (s.project shells).plan none = afterWriting s.numbers plan ∧
      s.IsRemadeBy shells plan := by
  have formed : (s.project shells).WellFormed "" := project_wellFormed live shells
  obtain ⟨startup, selected⟩ := formed.startup_selected
  have sourced : ∀ w ∈ (s.project shells).windows, w.Sourced := fun w member =>
    (Window.liveOrder_of_unnamed (fun pane declared =>
      (mem_project_panes member pane declared).1) _).1
  have placed : (s.project shells).geometries = .ok _ :=
    (Project.geometriesFrom_eq_ok formed.counted).mpr
      ⟨fun w member => ⟨formed.panes_ne_nil w member, sourced w member⟩, rfl⟩
  refine ⟨_, ?_, isRemadeBy_schedule live startup
    (Project.occasions ((s.project shells).planner s.sessionName ["tmux"]))⟩
  have indexes : (s.project shells).indexes = s.numbers := indexes_project
  rw [Project.plan_eq formed selected, prerequisites_project live, ok_bind, indexes]
  simp only [placed, ok_bind]

/-- What a frozen session is written as is read as the frozen project and compiled to a plan that
makes the session again, once its indices are written. -/
theorem compile_frozen {home : String} (absolute : Path.IsAbsolute home) (live : s.IsLive)
    (shells : List String) :
    ∃ tree plan, Document.outline home (s.project shells) = .ok tree ∧
      (∀ values, Document.normalize home values {} tree = pure (s.project shells)) ∧
      s.IsRemadeBy shells plan ∧
      ∀ (around : Surroundings) (values : Variables), around.home = home →
        (Run.compile around (some Settings.defaults) values {} tree).result =
          (afterWriting s.numbers plan).mapError Run.stopOf := by
  have formed : (s.project shells).WellFormed home := project_wellFormed live shells
  have plain : ∀ w ∈ (s.project shells).windows, ∀ pane ∈ w.panes, Document.PlainSize pane := by
    intro w member pane declared size found
    rw [(mem_project_panes member pane declared).2] at found
    cases found
  obtain ⟨tree, written, read⟩ := Document.normalize_outline_of_wellFormed absolute formed plain
  obtain ⟨plan, planned, remade⟩ := plan_project live shells
  refine ⟨tree, plan, written, read, remade, fun around values same => ?_⟩
  have built : (Document.normalize around.home values {} tree).result = .ok (s.project shells) := by
    rw [same, read]; rfl
  rw [Run.result_compile Run.command_defaults built, planned]

/-- A live session can be frozen, written, read and planned again. Reading gives the frozen project
back, and the plan makes the session that was there. Only where an index of the new session has too
many digits is there no plan. -/
theorem freeze_recompiled {home : String} {s : Snapshot} (absolute : Path.IsAbsolute home)
    (live : s.IsLive) (shells : List String) :
    ∃ p tree, s.freeze shells = .ok p ∧ Document.outline home p = .ok tree ∧
      (∀ values, Document.normalize home values {} tree = pure p) ∧
      ∀ (around : Surroundings) (values : Variables), around.home = home →
        ((∀ n ∈ s.numbers, ¬Text.IsOverlong n) →
          ∃ plan, (Run.compile around (some Settings.defaults) values {} tree).result = .ok plan ∧
            s.IsRemadeBy shells plan) ∧
        ((∃ n ∈ s.numbers, Text.IsOverlong n) →
          (Run.compile around (some Settings.defaults) values {} tree).result =
            .error (.failure (.fault .unwritable))) := by
  obtain ⟨tree, plan, written, read, remade, compiled⟩ := compile_frozen absolute live shells
  refine ⟨s.project shells, tree, freeze_eq_ok live shells, written, read, fun around values same =>
    ⟨fun short => ⟨plan, ?_, remade⟩, fun ⟨n, member, long⟩ => ?_⟩⟩
  · rw [compiled around values same, afterWriting_of_writable fun n member =>
      Text.not_isOverlong_iff.mp (short n member)]
    rfl
  · rw [compiled around values same,
      afterWriting_eq_unwritable.mpr ⟨n, member, Text.isOverlong_iff.mp long⟩]
    rfl

/-- Two windows: one arranged, with an idle shell next to its editor, and one whose name cannot
stand in a target. -/
def shopSession : Snapshot where
  sessionName := "dev"
  windows := [
    { index := 1, name := some "editor", layout := some "b25d,80x24,0,0"
      panes := [{ index := 1, workingDir := some "/srv/shop", command := some "nvim" },
        { index := 2, workingDir := some "/srv/shop/", command := some "-zsh" }] },
    { index := 2, name := some "v1.2"
      panes := [{ index := 1, workingDir := some "/srv/$shop", command := some "node" }] }]

theorem shopSession_isLive : shopSession.IsLive where
  name := ⟨by decide, by decide, by decide⟩
  windows_ne_nil := by decide
  panes_ne_nil := by decide
  windowBase := by decide
  paneBase := by decide
  layout := by simp [shopSession, Text.isTrimmed_iff]; decide
  paths := by simp [shopSession, Path.IsAbsolute]

theorem freeze_recompiled_shop :
    ∃ p tree, shopSession.freeze ["zsh"] = .ok p ∧ Document.outline "/home/ann" p = .ok tree ∧
      (∀ values, Document.normalize "/home/ann" values {} tree = pure p) ∧
      ∀ (around : Surroundings) (values : Variables), around.home = "/home/ann" →
        ((∀ n ∈ shopSession.numbers, ¬Text.IsOverlong n) →
          ∃ plan, (Run.compile around (some Settings.defaults) values {} tree).result = .ok plan ∧
            shopSession.IsRemadeBy ["zsh"] plan) ∧
        ((∃ n ∈ shopSession.numbers, Text.IsOverlong n) →
          (Run.compile around (some Settings.defaults) values {} tree).result =
            .error (.failure (.fault .unwritable))) := by
  have absolute : Path.IsAbsolute "/home/ann" := rfl
  exact freeze_recompiled absolute shopSession_isLive ["zsh"]

/-- A session in which a command runs that holds a placeholder. -/
def placeholderSession : Snapshot where
  sessionName := "dev"
  windows := [{ index := 1, panes := [{ index := 1, command := some "echo __SESSION__" }] }]

theorem placeholderSession_isLive : placeholderSession.IsLive where
  name := ⟨by decide, by decide, by decide⟩
  windows_ne_nil := by decide
  panes_ne_nil := by decide
  windowBase := by decide
  paneBase := by decide
  layout := by simp [placeholderSession]
  paths := by simp [placeholderSession]

/-- Its window has an index that cannot be written. -/
def highSession : Snapshot where
  sessionName := "dev"
  windows := [{ index := Text.firstOverlong, panes := [{ index := 1 }] }]

theorem highSession_isLive : highSession.IsLive where
  name := ⟨by decide, by decide, by decide⟩
  windows_ne_nil := by decide
  panes_ne_nil := by decide
  windowBase := Int.natCast_nonneg _
  paneBase := by decide
  layout := by simp [highSession]
  paths := by simp [highSession]

def annsMachine : Surroundings := ⟨[("HOME", "/home/ann")], "/tmp", []⟩

/-- The command is not typed as it ran, and the window that is too high up is not made. -/
theorem placeholder_filled :
    (∃ p tree plan, placeholderSession.IsLive ∧ placeholderSession.freeze [] = .ok p ∧
      Document.outline annsMachine.home p = .ok tree ∧
      (Run.compile annsMachine (some Settings.defaults) ⟨[]⟩ {} tree).result = .ok plan ∧
      plan.typed = [(placeholderSession.paneTarget 0 0, "echo dev")] ∧
      plan.typed ≠ [(placeholderSession.paneTarget 0 0,
        Document.commandLine "echo __SESSION__")]) ∧
    ∃ p tree, highSession.IsLive ∧ highSession.freeze [] = .ok p ∧
      Document.outline annsMachine.home p = .ok tree ∧
      (Run.compile annsMachine (some Settings.defaults) ⟨[]⟩ {} tree).result =
        .error (.failure (.fault .unwritable)) := by
  have typed : ((placeholderSession.freeze []).toOption.bind fun p =>
      (Document.outline annsMachine.home p).toOption.bind fun tree =>
        (Run.compile annsMachine (some Settings.defaults) ⟨[]⟩ {} tree).result.toOption.map
          Plan.typed) = some [(placeholderSession.paneTarget 0 0, "echo dev")] := by
    decide +kernel
  obtain ⟨p, frozen, typed⟩ := Option.bind_eq_some_iff.mp typed
  obtain ⟨tree, written, typed⟩ := Option.bind_eq_some_iff.mp typed
  obtain ⟨plan, compiled, typed⟩ := Option.map_eq_some_iff.mp typed
  refine ⟨⟨p, tree, plan, placeholderSession_isLive, eq_ok_of_toOption frozen,
    eq_ok_of_toOption written, eq_ok_of_toOption compiled, typed, ?_⟩, ?_⟩
  · rw [typed]
    decide
  · have high := highSession_isLive
    have absolute : Path.IsAbsolute annsMachine.home := rfl
    obtain ⟨tree, plan, written, -, -, compiled⟩ := compile_frozen absolute high []
    refine ⟨_, tree, high, freeze_eq_ok high [], written, ?_⟩
    have numbered : Text.firstOverlong ∈ highSession.numbers := by
      simp [numbers, highSession, windowBase, firstWindow]
    have long := Text.isOverlong_iff.mp Text.isOverlong_firstOverlong
    rw [compiled annsMachine ⟨[]⟩ rfl, afterWriting_eq_unwritable.mpr ⟨_, numbered, long⟩]
    rfl

end Snapshot
end SessionPlan
