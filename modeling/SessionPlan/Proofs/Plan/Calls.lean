import SessionPlan.Proofs.Plan.Roles
import SessionPlan.Proofs.Shell.Quoting

/-! The calls that a plan comes to when a shell has read its commands: for each command the words
that the multiplexer is handed. Every text of the user is one word of them, whatever it holds. -/
namespace SessionPlan
open SessionPlan.Text

namespace Command

/-- A shell reads the text of a command as the words of the command. -/
theorem split_text (c : Command) : Shell.split c.text = .ok c.words := Shell.split_joinWords c.words

/-- Doubling the hashes is a replacement of each. -/
theorem doubleHashes_eq (hook : String) : doubleHashes hook = Text.replace hook "#" "##" := by
  have doubled (s : List Char) : (s.flatMap fun c => if c = '#' then ['#', '#'] else [c]) =
      replaceFrom ['#'] ['#', '#'] 0 s := by
    induction s with
    | nil => rfl
    | cons c s ih =>
      rw [List.flatMap_cons, ih]
      by_cases hash : c = '#'
      · simp [replaceFrom, hash]
      · have other : '#' ≠ c := Ne.symm hash
        simp [replaceFrom, hash, other]
  have pair : "##".toList = ['#', '#'] := by decide
  have single : "#".toList = ['#'] := by decide
  rw [doubleHashes, doubled, Text.replace, pair, single]

/-- Halving the hashes from left to right undoes their doubling, also where several stand in a
row: each pair is read before the next one begins. -/
theorem replace_doubleHashes (hook : String) :
    Text.replace (doubleHashes hook) "##" "#" = hook := by
  have halved (s : List Char) :
      replaceFrom ['#', '#'] ['#'] 0 (s.flatMap fun c => if c = '#' then ['#', '#'] else [c]) =
        s := by
    induction s with
    | nil => rfl
    | cons c s ih =>
      by_cases hash : c = '#'
      · subst hash
        simpa [replaceFrom] using ih
      · have other : '#' ≠ c := Ne.symm hash
        simpa [replaceFrom, hash, other] using ih
  have pair : "##".toList = ['#', '#'] := by decide
  have single : "#".toList = ['#'] := by decide
  rw [Text.replace, pair, single, doubleHashes, String.toList_ofList, halved,
    String.ofList_toList]

end Command

namespace Planner

/-- A flag with its value, where there is one. -/
def flagged (flag : String) (value : Option String) : List String :=
  value.toList.flatMap fun value => [flag, value]

/-- A hook is one word, in which every hash is doubled. -/
def hookCalls (line : String → String) (hooks : List String) : List (List String) :=
  hooks.map fun hook => ["run-shell", Text.replace (line hook) "#" "##"]

def titleCalls (target : String) (pane : Pane) : List (List String) :=
  pane.name.toList.map fun title => ["select-pane", "-t", target, "-T", title]

def openingCalls (pl : Planner) (w : Window) (pane : Pane) (first : Bool) : List (List String) :=
  let options := flagged "-n" w.name ++ flagged "-c" (pl.directory w pane)
  (if first
    then [["new-session", "-d", "-s", pl.session] ++ options,
      ["set-option", "-t", pl.session, "base-index", pl.project.windowBaseIndex.repr],
      ["move-window", "-r", "-t", pl.session]]
    else [["new-window", "-t", pl.windowWord w] ++ options]) ++
  ["set-option", "-w", "-t", pl.windowWord w, "pane-base-index",
      pl.project.paneBaseIndex.repr] ::
    titleCalls (pl.paneWord w pl.project.paneBaseIndex) pane

/-- The word for the direction of a split. -/
def directionWord : SplitDirection → String
  | .horizontal => "-h"
  | .vertical => "-v"

/-- Panes that a layout will arrange are split off without a direction and a size. -/
def splittingCalls (pl : Planner) (w : Window) (pane : Pane) (j : Nat) : List (List String) :=
  let source := pl.project.paneBaseIndex + w.splitPosition j
  let shape := if w.layout.isSome then []
    else [directionWord (pane.split.getD .horizontal), "-l", pane.splitSize.getD "50%"]
  (["split-window", "-t", pl.paneWord w source] ++ shape ++
      flagged "-c" (pl.directory w pane)) ::
    titleCalls (pl.paneWord w (source + 1)) pane

/-- What is typed is one word as well, and the key that ends it another. -/
def paneCalls (pl : Planner) (w : Window) (pane : Pane) (j : Nat) : List (List String) :=
  let p := pl.project
  let line := pl.paneLine w (pl.live w j)
  let target := pl.paneWord w (pl.live w j)
  hookCalls line (p.onPaneCreate ++ w.onPaneCreate ++ pane.onCreate) ++
    ((p.paneCommands ++ w.paneCommands ++ pane.commands).map fun typed =>
      ["send-keys", "-t", target, line typed, "C-m"]) ++
    (if pane.clear then [["send-keys", "-t", target, "C-l"]] else []) ++
    hookCalls line (p.postPaneCreate ++ w.postPaneCreate ++ pane.postCreate)

def windowCalls (pl : Planner) (w : Window) (first : Bool) : List (List String) :=
  (w.panes.head?.toList.flatMap fun pane => pl.openingCalls w pane first) ++
    (w.panes.tail.zipIdx 1).flatMap (fun (pane, j) => pl.splittingCalls w pane j) ++
    (w.layout.toList.map fun layout => ["select-layout", "-t", pl.windowWord w, layout]) ++
    hookCalls (pl.windowLine w) w.onCreate ++
    w.panes.zipIdx.flatMap (fun (pane, j) => pl.paneCalls w pane j) ++
    hookCalls (pl.windowLine w) w.postCreate

/-- All calls of a plan in order, given the window that the session shows first. -/
def calls (pl : Planner) (startup : Window) : List (List String) :=
  let p := pl.project
  p.windows.zipIdx.flatMap (fun (w, i) => pl.windowCalls w (i == 0)) ++
    hookCalls pl.sessionLine p.postCreate ++
    [["select-window", "-t", pl.windowWord startup],
      ["select-pane", "-t", pl.paneWord startup (pl.live startup (startupPosition p))]] ++
    if p.attach then [["attach-session", "-t", pl.session]] else []

/-! ### The commands of a schedule have these words -/

theorem option_eq_flagged (flag : String) (value : Option String) :
    Command.option flag value = flagged flag value := by
  cases value <;> rfl

theorem words_titling (target : PaneTarget) (pane : Pane) :
    (titling target pane).map Command.words = titleCalls target.text pane := by
  simp only [titling, titleCalls, List.map_map]
  rfl

theorem words_runShell (line : String → String) (hooks : List String) :
    ((hooks.map line).map Command.runShell).map Command.words = hookCalls line hooks := by
  simp only [hookCalls, List.map_map, ← Command.doubleHashes_eq]
  rfl

theorem words_typeLine (line : String → String) (target : PaneTarget) (typed : List String) :
    ((typed.map line).map (Command.typeLine target)).map Command.words =
      typed.map fun text => ["send-keys", "-t", target.text, line text, "C-m"] := by
  simp only [List.map_map]
  rfl

theorem words_opening (pl : Planner) (w : Window) (pane : Pane) (first : Bool) :
    (pl.opening w pane first).commands.map Command.words = pl.openingCalls w pane first := by
  simp only [opening, openingCalls, List.map_append, List.map_cons, words_titling, text_paneAt]
  cases first <;> simp [Command.words, option_eq_flagged, text_windowAt, ofInt_eq_repr]

theorem words_splitting {home : String} {number : Int} {pl : Planner} {w : Window}
    (formed : w.WellFormed home number pl.project.paneBaseIndex) {pane : Pane} {j : Nat}
    (declared : w.panes[j]? = some pane) :
    (pl.splitting w pane j).commands.map Command.words = pl.splittingCalls w pane j := by
  have word (direction : SplitDirection) : direction.flag = directionWord direction := by
    cases direction <;> rfl
  simp only [splitting, splittingCalls, List.map_cons, words_titling, Command.words,
    formed.splitDirection_eq, formed.splitSize_eq declared, text_paneAt, option_eq_flagged]
  cases w.layout <;> simp [flagged, word]

theorem words_paneSchedule (pl : Planner) (w : Window) (pane : Pane) (j : Nat) :
    ((pl.paneSchedule w pane j).flatMap Group.commands).map Command.words =
      pl.paneCalls w pane j := by
  have cleared (target : PaneTarget) :
      (if pane.clear then [Command.clearScreen target] else []).map Command.words =
        if pane.clear then [["send-keys", "-t", target.text, "C-l"]] else [] := by
    cases pane.clear <;> rfl
  simp only [commands_paneSchedule, List.map_append (f := Command.words), words_runShell,
    words_typeLine, cleared, text_paneAt]
  simp only [paneCalls, ← List.append_assoc]

theorem words_windowSchedule {home : String} {number : Int} {pl : Planner} {w : Window}
    (formed : w.WellFormed home number pl.project.paneBaseIndex) (first : Bool) :
    ((pl.windowSchedule w first).flatMap Group.commands).map Command.words =
      pl.windowCalls w first := by
  obtain ⟨pane, further, panes⟩ := List.exists_cons_of_ne_nil formed.panes_ne_nil
  have split : (((further.zipIdx 1).map fun (pane, j) => pl.splitting w pane j).flatMap
      Group.commands).map Command.words =
        (further.zipIdx 1).flatMap fun (pane, j) => pl.splittingCalls w pane j := by
    rw [List.flatMap_map, List.map_flatMap]
    refine List.flatMap_congr ?_
    rintro ⟨other, j⟩ member
    have later : (other, j) ∈ w.panes.tail.zipIdx 1 := by rw [panes]; exact member
    exact words_splitting formed (further_declared later).2
  have arranged : ((w.layout.toList.map fun layout => (⟨.layout, [.selectLayout (pl.windowAt w)
      layout], some w.index, none⟩ : Group)).flatMap Group.commands).map Command.words =
        w.layout.toList.map fun layout => ["select-layout", "-t", pl.windowWord w, layout] := by
    rw [← text_windowAt]
    cases w.layout <;> rfl
  have furnished : ((w.panes.zipIdx.flatMap fun (pane, j) => pl.paneSchedule w pane j).flatMap
      Group.commands).map Command.words =
        w.panes.zipIdx.flatMap fun (pane, j) => pl.paneCalls w pane j := by
    rw [List.flatMap_assoc, List.map_flatMap]
    exact List.flatMap_congr fun _ _ => words_paneSchedule pl w _ _
  simp only [commands_windowSchedule panes, List.map_append, words_opening, split, arranged,
    words_runShell, furnished]
  simp [windowCalls, panes]

theorem words_schedule {home : String} {pl : Planner} (formed : pl.project.WellFormed home)
    (startup : Window) :
    ((pl.schedule startup).flatMap Group.commands).map Command.words = pl.calls startup := by
  have windows : ((pl.project.windows.zipIdx.flatMap fun (w, i) =>
      pl.windowSchedule w (i == 0)).flatMap Group.commands).map Command.words =
        pl.project.windows.zipIdx.flatMap fun (w, i) => pl.windowCalls w (i == 0) := by
    rw [List.flatMap_assoc, List.map_flatMap]
    refine List.flatMap_congr ?_
    rintro ⟨w, i⟩ member
    obtain ⟨number, window⟩ := formed.window (List.fst_mem_of_mem_zipIdx member)
    exact words_windowSchedule window (i == 0)
  simp only [commands_schedule, calls, List.map_append, windows, words_runShell,
    List.append_assoc, ← text_windowAt, ← text_paneAt]
  cases pl.project.attach <;> rfl

end Planner

namespace Project

/-- A shell reads the commands of a plan as the calls that the project asks for, and no text of the
project is ever more or less than one word of them. A hook comes back when its hashes are halved,
and wherever the multiplexer is named in one, its arguments are read. -/
theorem plan_calls {home : String} {wishes : Document.Wishes} {document : Tree} {p : Project}
    {override : Option String} {plan : Plan}
    (built : (Document.build home wishes document).result = .ok p)
    (planned : p.plan override = .ok plan) :
    (∃ startup, p.window? p.startupWindow = some startup ∧
      (plan.groups.flatMap Group.commands).map (fun c => Shell.split c.text) =
        ((p.planner plan.sessionName plan.tmuxArgs).calls startup).map .ok) ∧
    (∀ hook, Text.replace (Command.doubleHashes hook) "##" "#" = hook) ∧
    Shell.split (p.planner plan.sessionName plan.tmuxArgs).tmux = .ok plan.tmuxArgs := by
  have formed := Document.build_wellFormed built
  obtain ⟨startup, selected⟩ := formed.startup_selected
  obtain ⟨session, args, -, -, -, rfl⟩ := (plan_eq_ok formed selected).mp planned
  refine ⟨⟨startup, selected, ?_⟩, Command.replace_doubleHashes, Shell.split_joinWords args⟩
  calc (((p.planner session args).schedule startup).flatMap Group.commands).map
        (fun c => Shell.split c.text)
      = ((((p.planner session args).schedule startup).flatMap Group.commands).map
          Command.words).map Except.ok := by
        rw [List.map_map]
        exact List.map_congr_left fun c _ => c.split_text
    _ = ((p.planner session args).calls startup).map Except.ok :=
        congrArg (List.map Except.ok) (Planner.words_schedule formed startup)

/-- Names, a hook and a typed line full of marks that a shell or the multiplexer would heed. -/
def markedDocument : Tree := .mapping [
  (.text "name", .text "it's #1"), (.text "detached", .flag true),
  (.text "tmux_options", .text "-f 'a b'"),
  (.text "windows", .list [.mapping [(.text "name", .text "a; b"), (.text "panes", .mapping [
    (.text "on_create", .text "echo '#' __TMUX__"), (.text "commands", .text "ls \"$x\"\n\\")])]])]

def markedProject : Project where
  sessionName := some "it's #1"
  tmuxOptions := some "-f 'a b'"
  attach := false
  windows := [{
    name := some "a; b"
    panes := [{ onCreate := ["echo '#' __TMUX__"], commands := ["ls \"$x\" \\"] }] }]

def markedPlan : Plan where
  sessionName := "it's #1"
  tmuxArgs := ["tmux", "-f", "a b"]
  groups := [
    ⟨.create, [.newSession "it's #1" (some "a; b") none, .setBaseIndex "it's #1" 1,
      .renumberWindows "it's #1", .setPaneBaseIndex ⟨"it's #1", 1⟩ 1], some 1, some 1⟩,
    ⟨.onPaneCreate, [.runShell "echo '#' tmux -f 'a b'"], some 1, some 1⟩,
    ⟨.paneCommands, [.typeLine ⟨⟨"it's #1", 1⟩, 1⟩ "ls \"$x\" \\"], some 1, some 1⟩,
    ⟨.select, [.selectWindow ⟨"it's #1", 1⟩, .selectPane ⟨⟨"it's #1", 1⟩, 1⟩], some 1, some 1⟩]
  occasions := Occasion.all.map fun occasion => (occasion, [])

theorem build_markedDocument :
    (Document.build "/home/ann" {} markedDocument).result = .ok markedProject :=
  eq_ok_of_toOption (by decide +kernel)

theorem plan_markedProject : markedProject.plan none = .ok markedPlan :=
  eq_ok_of_toOption (by decide +kernel)

theorem plan_calls_marked :
    (∃ startup, markedProject.window? none = some startup ∧
      (markedPlan.groups.flatMap Group.commands).map (fun c => Shell.split c.text) =
        ((markedProject.planner "it's #1" ["tmux", "-f", "a b"]).calls startup).map .ok) ∧
    (∀ hook, Text.replace (Command.doubleHashes hook) "##" "#" = hook) ∧
    Shell.split (markedProject.planner "it's #1" ["tmux", "-f", "a b"]).tmux =
      .ok ["tmux", "-f", "a b"] :=
  plan_calls build_markedDocument plan_markedProject

end Project
end SessionPlan
