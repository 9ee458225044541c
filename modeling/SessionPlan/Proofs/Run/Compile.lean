import SessionPlan.Proofs.Outcome
import SessionPlan.Run.Compile

/-! What compiling a document comes to besides its log. -/
namespace SessionPlan.Run

@[simp] theorem result_onIssue (notes : Issue → List Log.Record) (x : Run α) :
    (onIssue notes x).result = x.result := by
  unfold onIssue
  split <;> rfl

@[simp] theorem result_mapError (f : ε → δ) (x : Noted ν ε α) :
    (x.mapError f).result = x.result.mapError f := rfl

@[simp] theorem result_note (n : ν) : (Noted.note n : Noted ν ε Unit).result = .ok () := rfl

/-- The usual settings leave the multiplexer to the project. -/
theorem command_defaults : Settings.command Settings.defaults = .ok .null := by
  simp [Settings.command, Settings.defaults, Settings.entry, Settings.tableOf, Tree.get?,
    Tree.field, Tree.lookupKey, Tree.same, Tree.sameLeaf, bind_eq_ok, pure_eq_ok]

/-- Without its log, compiling is to build, to choose the multiplexer and to plan. -/
theorem result_compile_eq (s : Surroundings) (settings document : Tree) (values : Variables)
    (wishes : Document.Wishes) :
    (compile s (some settings) values wishes document).result =
      ((Document.normalize s.home values wishes document).result >>= fun p =>
        multiplexer settings p >>= fun override => p.plan override).mapError stopOf := by
  have whole : (planOf settings (normalize wishes
      (Document.normalize s.home values wishes document))).result =
        (Document.normalize s.home values wishes document).result >>= fun p =>
          multiplexer settings p >>= fun override => p.plan override := by
    simp only [planOf, Noted.result_bind_eq, normalize, Noted.result_lift, Run.plan]
  simp only [compile, correlated, Noted.mapNotes, Noted.result_bind_eq, result_note, ok_bind,
    result_onIssue, Run.settings, Noted.result_pure, result_mapError, whole]
  cases ((Document.normalize s.home values wishes document).result >>= fun p =>
    multiplexer settings p >>= fun override => p.plan override) <;> rfl

/-- Settings that are not given are looked for first. -/
theorem result_compile_settings (s : Surroundings) (given : Option Tree) (document : Tree)
    (values : Variables) (wishes : Document.Wishes) :
    (compile s given values wishes document).result = (settings s given).result >>= fun found =>
      (compile s (some found) values wishes document).result := by
  simp only [compile, correlated, Noted.mapNotes, Noted.result_bind_eq, result_note, ok_bind,
    result_onIssue]
  rfl

/-- What was compiled with settings was built and planned, with the multiplexer that these name. -/
theorem compile_some_eq_ok {s : Surroundings} {settings document : Tree} {values : Variables}
    {wishes : Document.Wishes} {plan : Plan}
    (compiled : (compile s (some settings) values wishes document).result = .ok plan) :
    ∃ p override, (Document.normalize s.home values wishes document).result = .ok p ∧
      multiplexer settings p = .ok override ∧ p.plan override = .ok plan := by
  rw [result_compile_eq] at compiled
  cases ended : (Document.normalize s.home values wishes document).result >>= fun p =>
      multiplexer settings p >>= fun override => p.plan override with
  | error failure => rw [ended] at compiled; cases compiled
  | ok other =>
    rw [ended] at compiled
    cases compiled
    obtain ⟨p, built, planned⟩ := bind_eq_ok.mp ended
    obtain ⟨override, called, planned⟩ := bind_eq_ok.mp planned
    exact ⟨p, override, built, called, planned⟩

/-- Wherever its settings come from, what was compiled was built and planned. -/
theorem compile_eq_ok {s : Surroundings} {given : Option Tree} {document : Tree}
    {values : Variables} {wishes : Document.Wishes} {plan : Plan}
    (compiled : (compile s given values wishes document).result = .ok plan) :
    ∃ p override, (Document.normalize s.home values wishes document).result = .ok p ∧
      p.plan override = .ok plan := by
  rw [result_compile_settings] at compiled
  obtain ⟨found, -, compiled⟩ := bind_eq_ok.mp compiled
  obtain ⟨p, override, built, -, planned⟩ := compile_some_eq_ok compiled
  exact ⟨p, override, built, planned⟩

/-- With settings that name no multiplexer of their own, a document that can be built is compiled
like its project is planned. -/
theorem result_compile {s : Surroundings} {settings document : Tree} {values : Variables}
    {wishes : Document.Wishes} {p : Project}
    (unnamed : Settings.command settings = .ok .null)
    (built : (Document.normalize s.home values wishes document).result = .ok p) :
    (compile s (some settings) values wishes document).result =
      (p.plan none).mapError stopOf := by
  have called : multiplexer settings p = .ok none := by
    rw [multiplexer, unnamed]; rfl
  rw [result_compile_eq, built, ok_bind, called, ok_bind]

end SessionPlan.Run
