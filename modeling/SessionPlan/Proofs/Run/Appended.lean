import SessionPlan.Proofs.Document.Appended
import SessionPlan.Proofs.Plan.Schedule
import SessionPlan.Proofs.Run.Ends

/-! One more window in a document that is compiled. Its groups come after those of the windows that
were there, and before what comes after all windows; and no other group is touched. -/
namespace SessionPlan

namespace Planner

/-- The groups of all windows. -/
def windowsSchedule (pl : Planner) : List Group :=
  pl.project.windows.zipIdx.flatMap fun (w, i) => pl.windowSchedule w (i == 0)

/-- What comes after all windows: the hooks of the session, what it shows first, and attaching. -/
def ending (pl : Planner) (startup : Window) : List Group :=
  only (!pl.project.postCreate.isEmpty)
      ⟨.postCreate, pl.project.postCreate.map fun c => .runShell (pl.sessionLine c), none, none⟩ ++
    [pl.selecting startup] ++ only pl.project.attach ⟨.attach, [.attach pl.session], none, none⟩

theorem schedule_eq (pl : Planner) (startup : Window) :
    pl.schedule startup = pl.windowsSchedule ++ pl.ending startup := by
  simp only [schedule, windowsSchedule, ending, List.append_assoc]

theorem window_of_mem_only {called : Bool} {g h : Group} (member : h ∈ only called g) :
    h.window = g.window := by
  unfold only at member
  split at member
  · rw [List.mem_singleton.mp member]
  · cases member

theorem window_of_mem_paneSchedule {pl : Planner} {w : Window} {pane : Pane} {j : Nat} {g : Group}
    (member : g ∈ pl.paneSchedule w pane j) : g.window = some w.index := by
  simp only [paneSchedule, List.mem_append] at member
  rcases member with (create | typed) | post
  · exact window_of_mem_only create
  · exact window_of_mem_only typed
  · exact window_of_mem_only post

/-- All groups of a window bear its index. -/
theorem window_of_mem_windowSchedule {pl : Planner} {w : Window} {first : Bool} {g : Group}
    (member : g ∈ pl.windowSchedule w first) : g.window = some w.index := by
  simp only [windowSchedule, List.mem_append, List.mem_map, List.mem_flatMap] at member
  rcases member with
    ((((⟨_, -, rfl⟩ | ⟨_, -, rfl⟩) | ⟨_, -, rfl⟩) | create) | ⟨_, -, inside⟩) | post
  · rfl
  · rfl
  · rfl
  · exact window_of_mem_only create
  · exact window_of_mem_paneSchedule inside
  · exact window_of_mem_only post

theorem window_of_mem_ending {pl : Planner} {startup : Window} {g : Group}
    (member : g ∈ pl.ending startup) : g.window = none ∨ g.window = some startup.index := by
  simp only [ending, List.mem_append, List.mem_singleton] at member
  rcases member with (post | rfl) | attach
  · exact .inl (window_of_mem_only post)
  · exact .inr rfl
  · exact .inl (window_of_mem_only attach)

end Planner

/-! ### Plans -/

/-- What the plan of a project becomes with one more window. -/
structure Plan.Lengthened (p : Project) (added : Window) (plan longer : Plan) : Prop where
  /-- The groups of the new window come between those of all others and those that come last. -/
  groups : ∃ startup, p.window? p.startupWindow = some startup ∧
    let pl := p.planner plan.sessionName plan.tmuxArgs
    plan.groups = pl.windowsSchedule ++ pl.ending startup ∧
    longer.groups = pl.windowsSchedule ++ pl.windowSchedule added false ++ pl.ending startup
  sessionName : longer.sessionName = plan.sessionName
  tmuxArgs : longer.tmuxArgs = plan.tmuxArgs
  occasions : longer.occasions = plan.occasions
  /-- No group of the shorter plan has to do with the new window. -/
  others : ∀ g ∈ plan.groups, g.window ≠ some added.index

namespace Project
variable {home : String} {p : Project} {added : Window} {override : Option String}
  {plan longer : Plan}

/-- The window that the session starts in is found before the new one is looked at. -/
theorem window?_withWindow {selector : Option Selector} {startup : Window}
    (selected : p.window? selector = some startup) :
    (p.withWindow added).window? selector = some startup := by
  cases selector with
  | none =>
    obtain ⟨rest, windows⟩ := List.head?_eq_some_iff.mp selected
    rw [window?, withWindow, windows]
    rfl
  | some selector =>
    have found : p.windows.find? selector.selects = some startup := selected
    rw [window?, withWindow, List.find?_append, found, Option.some_or]

/-- Only the first window makes the session, so the new one is opened as every other. -/
theorem windowsSchedule_withWindow (some_window : p.windows ≠ []) (session : String)
    (args : List String) :
    ((p.withWindow added).planner session args).windowsSchedule =
      (p.planner session args).windowsSchedule ++
        (p.planner session args).windowSchedule added false := by
  have later : (p.windows.length == 0) = false := by simpa using some_window
  have parts : (p.withWindow added).windows.zipIdx =
      p.windows.zipIdx ++ [(added, p.windows.length)] := by
    rw [withWindow, List.zipIdx_append, List.zipIdx_singleton, Nat.zero_add]
  have whole := congrArg (List.flatMap fun (w, i) =>
    (p.planner session args).windowSchedule w (i == 0)) parts
  rw [List.flatMap_append, List.flatMap_singleton] at whole
  dsimp only at whole
  rwa [later] at whole

/-- The index of the new window is past those of all others. -/
theorem index_ne_added (formed : p.WellFormed home)
    (formed' : (p.withWindow added).WellFormed home) :
    ∀ w ∈ p.windows, w.index ≠ added.index := by
  intro w known
  obtain ⟨i, place⟩ := List.mem_iff_getElem?.mp known
  have index := (formed.windows i w place).index
  have before := (List.getElem?_eq_some_iff.mp place).1
  have declared : (p.withWindow added).windows[p.windows.length]? = some added := by
    simp [withWindow]
  have last := (formed'.windows _ _ declared).index
  have base : (p.withWindow added).windowBaseIndex = p.windowBaseIndex := rfl
  omega

/-- The plan of the project is the same with one more window, but for the groups of that. -/
theorem plan_withWindow (formed : p.WellFormed home)
    (formed' : (p.withWindow added).WellFormed home) (planned : p.plan override = .ok plan)
    (further : (p.withWindow added).plan override = .ok longer) :
    plan.Lengthened p added longer := by
  obtain ⟨startup, selected⟩ := formed.startup_selected
  obtain ⟨session, args, named, -, -, rfl⟩ := (plan_eq_ok formed selected).mp planned
  obtain ⟨session', args', named', -, -, rfl⟩ :=
    (plan_eq_ok formed' (window?_withWindow selected)).mp further
  have same : p.prerequisites override = (p.withWindow added).prerequisites override := rfl
  rw [← same, named] at named'
  cases named'
  have known := mem_of_window? selected
  have apart := index_ne_added formed formed'
  refine ⟨⟨startup, selected, Planner.schedule_eq _ _, ?_⟩, rfl, rfl, rfl, fun g member => ?_⟩
  · dsimp only
    rw [Planner.schedule_eq, windowsSchedule_withWindow (List.ne_nil_of_mem known)]
    rfl
  · dsimp only at member
    rw [Planner.schedule_eq, List.mem_append, Planner.windowsSchedule, List.mem_flatMap] at member
    rcases member with ⟨⟨w, i⟩, declared, inside⟩ | tail
    · rw [Planner.window_of_mem_windowSchedule inside, Ne, Option.some.injEq]
      exact apart w (List.fst_mem_of_mem_zipIdx declared)
    · rcases Planner.window_of_mem_ending tail with none | there
      · rw [none]
        exact nofun
      · rw [there, Ne, Option.some.injEq]
        exact apart startup known

end Project

namespace Run

/-- A document is compiled with one more entry in its list of windows. The entry is built at its
place to a window `added`, and the plan is the one that it was with the groups of `added` before
what comes after all windows. -/
theorem compile_appended {s : Surroundings} {given : Option Tree} {values : Variables}
    {wishes : Document.Wishes} {w document longer : Tree} {plan further : Plan}
    (appended : Document.Appended values w document longer)
    (compiled : (compile s given values wishes document).result = .ok plan)
    (again : (compile s given values wishes longer).result = .ok further) :
    ∃ p entry added, (Document.normalize s.home values wishes document).result = .ok p ∧
      w.expand values = .ok entry ∧
      (Document.window s.home (Document.itemPath "windows" p.windows.length)
        (p.windowBaseIndex + p.windows.length) p.paneBaseIndex entry).result = .ok added ∧
      plan.Lengthened p added further := by
  rw [result_compile_settings] at compiled again
  obtain ⟨settings, found, compiled⟩ := bind_eq_ok.mp compiled
  obtain ⟨settings', found', again⟩ := bind_eq_ok.mp again
  obtain rfl := Except.ok.inj (found.symm.trans found')
  obtain ⟨p, override, built, called, planned⟩ := compile_some_eq_ok compiled
  obtain ⟨p', override', built', called', planned'⟩ := compile_some_eq_ok again
  obtain ⟨entry, added, expanded, rfl, opened⟩ :=
    Document.normalize_appended appended built built'
  have unchanged : multiplexer settings (p.withWindow added) = multiplexer settings p := rfl
  obtain rfl := Except.ok.inj (called.symm.trans (unchanged.symm.trans called'))
  exact ⟨p, entry, added, built, expanded, opened,
    Project.plan_withWindow (Document.normalize_wellFormed built)
      (Document.normalize_wellFormed built') planned planned'⟩

/-- A session that starts in `web`. Its windows are under a key that has to be expanded. -/
def growing (windows : List Tree) : Tree := .mapping [
  (.text "name", .text "dev"), (.text "$LIST", .list windows),
  (.text "startup_window", .text "web")]

def growingVariables : Variables := ⟨[("LIST", "windows")]⟩

def webWindow (panes : List Tree) : Tree := .mapping [
  (.text "name", .text "web"), (.text "panes", .list panes)]

theorem appended_growing (windows : List Tree) (w : Tree) :
    Document.Appended growingVariables w (growing windows) (growing (windows ++ [w])) := by
  refine @Document.Appended.intro _ _ [(.text "name", .text "dev")] _ _ _ fun entries expanded => ?_
  obtain ⟨_, done, same⟩ := Tree.expand_mapping_eq_ok expanded
  cases same
  have texts : ["name", "$LIST", "startup_window"].map (expand growingVariables) =
      ["name", "windows", "startup_window"] := by decide
  have keys : [Tree.text "name", .text "$LIST", .text "startup_window"].mapM
      (Tree.expand growingVariables) = .ok (["name", "windows", "startup_window"].map .text) := by
    rw [← texts]
    rfl
  have names := Except.ok.inj ((Tree.expandEntries_keys done).symm.trans keys)
  have heard : Document.winner? Document.projectVocabulary (Document.plainPairs entries) =
      Document.winner? Document.projectVocabulary (Document.plainPairs
        [(.text "name", .null), (.text "windows", .null), (.text "startup_window", .null)]) :=
    Document.winner?_congr (by
      simpa [Document.plainPairs, Function.comp_def] using congrArg (List.map (·, false)) names)
  rw [heard]
  decide

/-- The new window has the name of the one that the session starts in. -/
theorem compile_appended_twin :
    Document.Appended growingVariables (webWindow [.null, .text "ls"])
      (growing [.text "vim", webWindow [.text "top"]])
      (growing [.text "vim", webWindow [.text "top"], webWindow [.null, .text "ls"]]) ∧
    ∃ plan further,
      (compile bareMachine (some Settings.defaults) growingVariables {}
        (growing [.text "vim", webWindow [.text "top"]])).result = .ok plan ∧
      (compile bareMachine (some Settings.defaults) growingVariables {}
        (growing [.text "vim", webWindow [.text "top"],
          webWindow [.null, .text "ls"]])).result = .ok further ∧
      plan.groups.length = 6 ∧ further.groups.length = 9 ∧
      ∃ p entry added,
        (Document.normalize bareMachine.home growingVariables {}
          (growing [.text "vim", webWindow [.text "top"]])).result = .ok p ∧
        (webWindow [.null, .text "ls"]).expand growingVariables = .ok entry ∧
        (Document.window bareMachine.home (Document.itemPath "windows" p.windows.length)
          (p.windowBaseIndex + p.windows.length) p.paneBaseIndex entry).result = .ok added ∧
        plan.Lengthened p added further := by
  have appended := appended_growing [.text "vim", webWindow [.text "top"]]
    (webWindow [.null, .text "ls"])
  have short : (compile bareMachine (some Settings.defaults) growingVariables {}
      (growing [.text "vim", webWindow [.text "top"]])).result.toOption.map (·.groups.length) =
        some 6 := by decide +kernel
  have long : (compile bareMachine (some Settings.defaults) growingVariables {}
      (growing [.text "vim", webWindow [.text "top"],
        webWindow [.null, .text "ls"]])).result.toOption.map (·.groups.length) =
        some 9 := by decide +kernel
  obtain ⟨plan, compiled, six⟩ := Option.map_eq_some_iff.mp short
  obtain ⟨further, again, nine⟩ := Option.map_eq_some_iff.mp long
  exact ⟨appended, plan, further, eq_ok_of_toOption compiled, eq_ok_of_toOption again, six, nine,
    compile_appended appended (eq_ok_of_toOption compiled) (eq_ok_of_toOption again)⟩

end Run
end SessionPlan
