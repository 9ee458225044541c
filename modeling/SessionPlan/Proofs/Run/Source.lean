import SessionPlan.Proofs.Plan.Lines
import SessionPlan.Proofs.Run.Ends

/-! The text of a compiled plan, one command after the other, each ended by a line feed. -/
namespace SessionPlan.Run
open SessionPlan.Text

/-- The commands of a compiled plan are one line each, and are found again by cutting its text at
the line feeds, just where nothing that comes into them is broken: not the session's name, nor the
name or layout of a window, nor the title or directory of a pane, nor, where a hook or a typed line
calls the multiplexer, its arguments. -/
theorem compile_source {s : Surroundings} {given : Option Tree} {document : Tree}
    {values : Variables} {wishes : Document.Wishes} {plan : Plan}
    (compiled : (compile s given values wishes document).result = .ok plan) :
    ∃ p, (Document.normalize s.home values wishes document).result = .ok p ∧
      (AllOneLine plan.lines ↔ (p.planner plan.sessionName plan.tmuxArgs).Unbroken) ∧
      (Text.split (plan.source true) '\n' = plan.lines ++ [""] ↔
        (p.planner plan.sessionName plan.tmuxArgs).Unbroken) := by
  obtain ⟨p, override, built, planned⟩ := compile_eq_ok compiled
  have lines := Project.plan_lines (Document.normalize_wellFormed built) planned
  refine ⟨p, built, lines, ?_⟩
  rw [plan.source_eq, split_lines, lines]

/-- A typed line that is written on two lines. -/
def spreadDocument : Tree := .mapping [
  (.text "name", .text "dev"), (.text "detached", .flag true),
  (.text "windows", .list [.list [.text "make\r\necho __SESSION__"]])]

def spreadPlan : Plan where
  sessionName := "dev"
  tmuxArgs := ["tmux"]
  groups := [
    ⟨.create, [.newSession "dev" none none, .setBaseIndex "dev" 1, .renumberWindows "dev",
      .setPaneBaseIndex ⟨"dev", 1⟩ 1], some 1, some 1⟩,
    ⟨.paneCommands, [.typeLine ⟨⟨"dev", 1⟩, 1⟩ "make echo dev"], some 1, some 1⟩,
    ⟨.select, [.selectWindow ⟨"dev", 1⟩, .selectPane ⟨⟨"dev", 1⟩, 1⟩], some 1, some 1⟩]
  occasions := Occasion.all.map fun occasion => (occasion, [])

theorem compile_spreadDocument :
    (compile bareMachine (some Settings.defaults) ⟨[]⟩ {} spreadDocument).result =
      .ok spreadPlan := eq_ok_of_toOption (by decide +kernel)

theorem compile_source_spread :
    AllOneLine spreadPlan.lines ∧
    ∃ p, (Document.normalize bareMachine.home ⟨[]⟩ {} spreadDocument).result = .ok p ∧
      (AllOneLine spreadPlan.lines ↔ (p.planner "dev" ["tmux"]).Unbroken) ∧
      (Text.split (spreadPlan.source true) '\n' = spreadPlan.lines ++ [""] ↔
        (p.planner "dev" ["tmux"]).Unbroken) := by
  have words : ∀ c ∈ spreadPlan.groups.flatMap Group.commands, AllOneLine c.words := by decide
  exact ⟨List.forall_mem_map.mpr fun c member => c.oneLine_text.mpr (words c member),
    compile_source compile_spreadDocument⟩

/-- A session whose name goes over two lines, and a typed line with that name. -/
def brokenDocument : Tree := .mapping [
  (.text "name", .text "dev\nmain"), (.text "windows", .list [.text "echo __SESSION__"])]

def brokenPlan : Plan where
  sessionName := "dev\nmain"
  tmuxArgs := ["tmux"]
  groups := [
    ⟨.create, [.newSession "dev\nmain" none none, .setBaseIndex "dev\nmain" 1,
      .renumberWindows "dev\nmain", .setPaneBaseIndex ⟨"dev\nmain", 1⟩ 1], some 1, some 1⟩,
    ⟨.paneCommands, [.typeLine ⟨⟨"dev\nmain", 1⟩, 1⟩ "echo dev\nmain"], some 1, some 1⟩,
    ⟨.select, [.selectWindow ⟨"dev\nmain", 1⟩, .selectPane ⟨⟨"dev\nmain", 1⟩, 1⟩], some 1, some 1⟩,
    ⟨.attach, [.attach "dev\nmain"], none, none⟩]
  occasions := Occasion.all.map fun occasion => (occasion, [])

theorem compile_brokenDocument :
    (compile bareMachine (some Settings.defaults) ⟨[]⟩ {} brokenDocument).result =
      .ok brokenPlan := eq_ok_of_toOption (by decide +kernel)

/-- No command of that session is one line, and cutting its text does not give them back. -/
theorem compile_broken :
    (compile bareMachine (some Settings.defaults) ⟨[]⟩ {} brokenDocument).result =
        .ok brokenPlan ∧
      (∀ line ∈ brokenPlan.lines, ¬OneLine line) ∧
      Text.split (brokenPlan.source true) '\n' ≠ brokenPlan.lines ++ [""] := by
  have words : ∀ c ∈ brokenPlan.groups.flatMap Group.commands, ¬AllOneLine c.words := by decide
  have broken : ∀ line ∈ brokenPlan.lines, ¬OneLine line :=
    List.forall_mem_map.mpr fun c member => mt c.oneLine_text.mp (words c member)
  refine ⟨compile_brokenDocument, broken, fun cut => ?_⟩
  rw [Plan.source_eq, split_lines] at cut
  exact broken _ List.mem_cons_self (cut _ List.mem_cons_self)

end SessionPlan.Run
