import SessionPlan.Proofs.Document.Blame
import SessionPlan.Proofs.Plan.Refusal
import SessionPlan.Proofs.Run.Compile
import SessionPlan.Proofs.Variables.Plain

/-! How compiling ends: with a plan, with an issue for the caller, or with a fault that the document
is to blame for. -/
namespace SessionPlan.Run

/-- Settings without a flaw name a multiplexer, or leave it to the project. -/
theorem command_of_valid {settings : Tree} (valid : Settings.flaw? settings = .ok none) :
    ∃ command, Settings.command settings = .ok command ∧ Settings.isCommand command = true := by
  unfold Settings.flaw? at valid
  split at valid
  · split at valid
    · cases valid
    · obtain ⟨format, -, valid⟩ := bind_eq_ok.mp valid
      split at valid
      · cases valid
      · obtain ⟨command, read, valid⟩ := bind_eq_ok.mp valid
        split at valid
        · cases valid
        · rename_i accepted
          exact ⟨command, read, by simpa using accepted⟩
  · cases valid

theorem multiplexer_of_valid {settings : Tree} (valid : Settings.flaw? settings = .ok none)
    (p : Project) : ∃ override, multiplexer settings p = .ok override := by
  obtain ⟨command, read, accepted⟩ := command_of_valid valid
  unfold Settings.isCommand at accepted
  split at accepted
  · exact ⟨none, by rw [multiplexer, read]; rfl⟩
  · rename_i name
    exact ⟨some name, by rw [multiplexer, read]; rfl⟩
  · cases accepted

/-- What is done to an expanded document without a guard: reading it, and writing the integers of
the project that is built from it. -/
inductive Unplanned (home : String) (wishes : Document.Wishes) (expanded : Tree) : Fault → Prop
  | building {fault : Fault} (unguarded : Document.Unguarded expanded fault) :
    Unplanned home wishes expanded fault
  | planning {p : Project} (built : (Document.build home wishes expanded).result = .ok p)
    (long : p.HasOverlong) : Unplanned home wishes expanded .unwritable

/-- What a run can fail with after expansion: a problem, or something that is not guarded. -/
theorem stages_failsOnly {settings document expanded : Tree} {values : Variables}
    (valid : Settings.flaw? settings = .ok none) (home : String) (wishes : Document.Wishes)
    (expansion : document.expand values = .ok expanded) :
    FailsOnly (Failure.Among (Unplanned home wishes expanded))
      ((Document.normalize home values wishes document).result >>= fun p =>
        multiplexer settings p >>= fun override => p.plan override) := by
  have normalized : (Document.normalize home values wishes document).result =
      (Document.build home wishes expanded).result := by
    simp only [Document.normalize, Noted.result_bind_eq, Noted.result_liftM, expansion, ok_bind]
  rw [normalized]
  have building := (Document.build_failsOnly home wishes expanded).mono
    (Failure.Among.mono fun fault unguarded =>
      (.building unguarded : Unplanned home wishes expanded fault))
  refine building.bind fun p built => ?_
  obtain ⟨override, chosen⟩ := multiplexer_of_valid valid p
  rw [chosen, ok_bind]
  have formed := Document.build_wellFormed built
  refine (Project.plan_failsOnly formed override).mono (Failure.Among.mono ?_)
  rintro fault ⟨rfl, long⟩
  exact .planning built long

/-- With valid settings, a document in which nothing holds itself is compiled to a whole plan or to
an issue that the caller is told; unless it holds, once it is expanded, something that is read or
written without a guard. -/
theorem compile_ends {settings document : Tree} (valid : Settings.flaw? settings = .ok none)
    (plain : document.IsPlain) (s : Surroundings) (values : Variables)
    (wishes : Document.Wishes) :
    (∃ plan, (compile s (some settings) values wishes document).result = .ok plan) ∨
    (∃ issue, (compile s (some settings) values wishes document).result =
      .error (.issue issue)) ∨
    ∃ expanded fault, document.expand values = .ok expanded ∧
      Unplanned s.home wishes expanded fault ∧
      (compile s (some settings) values wishes document).result =
        .error (.failure (.fault fault)) := by
  rw [result_compile_eq]
  cases expansion : document.expand values with
  | error failure =>
    have described : failure.Among fun _ => False :=
      Tree.expand_failsOnly values plain failure expansion
    cases failure with
    | fault fault => exact described.elim
    | problem problem =>
      refine .inr (.inl ⟨problem.issue, ?_⟩)
      simp only [Document.normalize, Noted.result_bind_eq, Noted.result_liftM, expansion]
      rfl
  | ok expanded =>
    have fails := stages_failsOnly valid s.home wishes expansion
    cases ended : (Document.normalize s.home values wishes document).result >>= fun p =>
        multiplexer settings p >>= fun override => p.plan override with
    | ok plan => exact .inl ⟨plan, rfl⟩
    | error failure =>
      have blamed := fails failure ended
      cases failure with
      | problem problem => exact .inr (.inl ⟨problem.issue, rfl⟩)
      | fault fault => exact .inr (.inr ⟨expanded, fault, rfl, blamed, rfl⟩)

/-- A superscript is a digit but no decimal. -/
def powerDocument : Tree := .mapping [
  (.text "name", .text "dev"), (.text "windows", .list [.mapping [
    (.text "panes", .list [.mapping [(.text "split_size", .text "²")]])]])]

def bareMachine : Surroundings := ⟨[("HOME", "/home/ann")], "/", []⟩

theorem flaw?_defaults : Settings.flaw? Settings.defaults = .ok none := by
  have accepted : (Settings.flaw? Settings.defaults).toOption.map Option.isNone = some true := by
    decide +kernel
  obtain ⟨flaw, read, none⟩ := Option.map_eq_some_iff.mp accepted
  rw [eq_ok_of_toOption read, Option.isNone_iff_eq_none.mp none]

theorem isPlain_powerDocument : powerDocument.IsPlain := by
  have apart : Tree.same (.text "name") (.text "windows") = false := by decide +kernel
  simp [powerDocument, Tree.IsPlain, Tree.ArePlain, Tree.HavePlain, Tree.IsPlainKey, apart]

theorem compile_ends_power :
    Settings.flaw? Settings.defaults = .ok none ∧ powerDocument.IsPlain ∧
    ((∃ plan, (compile bareMachine (some Settings.defaults) ⟨[]⟩ {} powerDocument).result =
      .ok plan) ∨
    (∃ issue, (compile bareMachine (some Settings.defaults) ⟨[]⟩ {} powerDocument).result =
      .error (.issue issue)) ∨
    ∃ expanded fault, powerDocument.expand ⟨[]⟩ = .ok expanded ∧
      Unplanned bareMachine.home {} expanded fault ∧
      (compile bareMachine (some Settings.defaults) ⟨[]⟩ {} powerDocument).result =
        .error (.failure (.fault fault))) :=
  ⟨flaw?_defaults, isPlain_powerDocument,
    compile_ends flaw?_defaults isPlain_powerDocument bareMachine ⟨[]⟩ {}⟩

/-- What is said when a fault goes past the caller. -/
def faultWords? : Except Stop α → Option String
  | .error (.failure (.fault f)) => f.message?
  | _ => none

theorem fault_of_faultWords? {r : Except Stop α} {words : String}
    (said : faultWords? r = some words) :
    ∃ fault, r = .error (.failure (.fault fault)) ∧ fault.message? = some words := by
  unfold faultWords? at said
  split at said
  · exact ⟨_, rfl, said⟩
  · cases said

/-- The size is neither taken nor reported. -/
theorem compile_power_escapes :
    Settings.flaw? Settings.defaults = .ok none ∧ powerDocument.IsPlain ∧
    ∃ fault, (compile bareMachine (some Settings.defaults) ⟨[]⟩ {} powerDocument).result =
        .error (.failure (.fault fault)) ∧
      fault.message? = some "invalid literal for int() with base 10: '²'" :=
  ⟨flaw?_defaults, isPlain_powerDocument, fault_of_faultWords? (by decide +kernel)⟩

/-! Two of the others. -/

example : faultWords? (compile bareMachine (some Settings.defaults) ⟨[]⟩ {} (.mapping [
    (.text "name", .text "dev"), (.text "startup_window", .text "1²")])).result =
      some "invalid literal for int() with base 10: '1²'" := by decide +kernel

example : faultWords? (compile bareMachine (some Settings.defaults) ⟨[]⟩ {} (.mapping [
    (.text "name", .text "dev"), (.text "root", .text "~a\x00b/src")])).result =
      some "embedded null byte" := by decide +kernel

end SessionPlan.Run
