import SessionPlan.Noted

/-! How a computation that ended well went: every step of it ended well, and the next one began
with its answer. Notes are left aside here, since an answer does not hang on them. -/
namespace SessionPlan

theorem bind_eq_ok {x : Except ε α} {f : α → Except ε β} {b : β} :
    (x >>= f) = .ok b ↔ ∃ a, x = .ok a ∧ f a = .ok b := by
  cases x <;> simp [bind, Except.bind]

theorem pure_eq_ok {a b : α} : (pure a : Except ε α) = .ok b ↔ a = b := by
  simp [pure, Except.pure]

theorem ok_bind (a : α) (f : α → Except ε β) : ((Except.ok a : Except ε α) >>= f) = f a := rfl

theorem eq_ok_of_toOption {x : Except ε α} {a : α} (h : x.toOption = some a) : x = .ok a := by
  cases x <;> simp_all [Except.toOption]

/-- How a computation failed, if it did. -/
def error? : Except ε α → Option ε
  | .error e => some e
  | .ok _ => none

theorem eq_error_of_error? {x : Except ε α} {e : ε} (h : error? x = some e) : x = .error e := by
  cases x <;> simp_all [error?]

/-- A list is worked through if each of its items is. -/
theorem mapM_eq_ok_of {f : α → Except ε β} {g : α → β} {items : List α}
    (each : ∀ a ∈ items, f a = .ok (g a)) : items.mapM f = .ok (items.map g) := by
  induction items with
  | nil => rfl
  | cons a rest ih =>
    have first := each a List.mem_cons_self
    have later := ih fun b member => each b (List.mem_cons_of_mem _ member)
    rw [List.mapM_cons, first, ok_bind, later]
    rfl

theorem exists_mapM_eq_ok {f : α → Except ε β} {items : List α}
    (each : ∀ a ∈ items, ∃ b, f a = .ok b) : ∃ out, items.mapM f = .ok out := by
  induction items with
  | nil => exact ⟨[], rfl⟩
  | cons a rest ih =>
    obtain ⟨b, first⟩ := each a List.mem_cons_self
    obtain ⟨out, later⟩ := ih fun c member => each c (List.mem_cons_of_mem _ member)
    exact ⟨b :: out, by rw [List.mapM_cons, first, ok_bind, later]; rfl⟩

theorem mapM_map (f : α → Except ε β) (g : β → γ) (items : List α) :
    (items.mapM fun a => g <$> f a) = (·.map g) <$> items.mapM f := by
  induction items with
  | nil => rfl
  | cons a rest ih =>
    rw [List.mapM_cons, List.mapM_cons, ih]
    simp only [bind_map_left, map_bind, map_pure, List.map_cons]

/-- Whatever came out of a list was made of one of its items. -/
theorem mem_of_mapM_eq_ok {f : α → Except ε β} {items : List α} {out : List β}
    (done : items.mapM f = .ok out) {b : β} (member : b ∈ out) : ∃ a ∈ items, f a = .ok b := by
  induction items generalizing out with
  | nil =>
    cases done
    cases member
  | cons a rest ih =>
    rw [List.mapM_cons] at done
    obtain ⟨first, made, done⟩ := bind_eq_ok.mp done
    obtain ⟨later, others, eq⟩ := bind_eq_ok.mp done
    cases eq
    rcases List.mem_cons.mp member with rfl | further
    · exact ⟨a, List.mem_cons_self, made⟩
    · obtain ⟨c, known, made⟩ := ih others further
      exact ⟨c, List.mem_cons_of_mem _ known, made⟩

theorem ne_nil_of_mapM_eq_ok {f : α → Except ε β} {items : List α} (nonempty : items ≠ [])
    {out : List β} (done : items.mapM f = .ok out) : out ≠ [] := by
  obtain ⟨a, rest, rfl⟩ := List.exists_cons_of_ne_nil nonempty
  rw [List.mapM_cons] at done
  obtain ⟨b, -, done⟩ := bind_eq_ok.mp done
  obtain ⟨more, -, eq⟩ := bind_eq_ok.mp done
  cases eq
  exact List.cons_ne_nil b more

/-- Both end well, with answers that are related, or both fail, each for reasons of its own. -/
def EndAlike (R : α → β → Prop) : Except ε α → Except ε β → Prop
  | .ok a, .ok b => R a b
  | .error _, .error _ => True
  | _, _ => False

namespace EndAlike

theorem same {R : α → α → Prop} (reflexive : ∀ a, R a a) (r : Except ε α) : EndAlike R r r := by
  cases r with
  | error e => trivial
  | ok a => exact reflexive a

theorem refl (r : Except ε α) : EndAlike Eq r r := same (fun _ => rfl) r

theorem ok_or_error {r s : Except ε α} (ends : EndAlike Eq r s) :
    (∃ a, r = .ok a ∧ s = .ok a) ∨ (∃ e, r = .error e) ∧ ∃ e, s = .error e := by
  cases r with
  | error e =>
    cases s with
    | error e' => exact .inr ⟨⟨e, rfl⟩, e', rfl⟩
    | ok b => cases ends
  | ok a =>
    cases s with
    | error e' => cases ends
    | ok b => exact .inl ⟨a, rfl, congrArg _ (Eq.symm ends)⟩

theorem bind {R : α → β → Prop} {S : γ → δ → Prop} {r : Except ε α} {s : Except ε β}
    {f : α → Except ε γ} {g : β → Except ε δ} (first : EndAlike R r s)
    (later : ∀ a b, R a b → EndAlike S (f a) (g b)) : EndAlike S (r >>= f) (s >>= g) := by
  cases r with
  | error e =>
    cases s with
    | error e' => trivial
    | ok b => cases first
  | ok a =>
    cases s with
    | error e' => cases first
    | ok b => exact later a b first

theorem bind_same {S : γ → δ → Prop} (r : Except ε α) {f : α → Except ε γ} {g : α → Except ε δ}
    (later : ∀ a, EndAlike S (f a) (g a)) : EndAlike S (r >>= f) (r >>= g) :=
  bind (refl r) fun a _ same => same ▸ later a

end EndAlike

namespace Noted

@[simp] theorem result_lift (r : Except ε α) : (lift r : Noted ν ε α).result = r := rfl

@[simp] theorem result_liftM (r : Except ε α) : (liftM r : Noted ν ε α).result = r := rfl

@[simp] theorem result_pure (a : α) : (Pure.pure a : Noted ν ε α).result = .ok a := rfl

theorem pure_bind (a : α) (f : α → Noted ν ε β) : (Pure.pure a >>= f) = f a := rfl

theorem lift_ok (a : α) : (lift (.ok a) : Noted ν ε α) = Pure.pure a := rfl

theorem liftM_ok (a : α) : (liftM (Except.ok a : Except ε α) : Noted ν ε α) = Pure.pure a := rfl

theorem result_bind_eq (x : Noted ν ε α) (f : α → Noted ν ε β) :
    (x >>= f).result = x.result >>= fun a => (f a).result :=
  result_bind x f

theorem result_bind_eq_ok {x : Noted ν ε α} {f : α → Noted ν ε β} {b : β} :
    (x >>= f).result = .ok b ↔ ∃ a, x.result = .ok a ∧ (f a).result = .ok b := by
  rw [result_bind_eq, bind_eq_ok]

/-- Two computations that leave the same notes and either end with the same answer or both fail,
each for reasons of its own. -/
structure Agree (x y : Noted ν ε α) : Prop where
  notes : x.notes = y.notes
  answer : x.result.toOption = y.result.toOption

namespace Agree

theorem refl (x : Noted ν ε α) : Agree x x := ⟨rfl, rfl⟩

theorem of_eq {x y : Noted ν ε α} (h : x = y) : Agree x y := ⟨h ▸ rfl, h ▸ rfl⟩

theorem lift {r s : Except ε α} (h : r.toOption = s.toOption) :
    Agree (lift r : Noted ν ε α) (lift s) := ⟨rfl, h⟩

theorem bind {x y : Noted ν ε α} {f g : α → Noted ν ε β} (first : Agree x y)
    (later : ∀ a, Agree (f a) (g a)) : Agree (x >>= f) (y >>= g) := by
  obtain ⟨xs, r⟩ := x
  obtain ⟨ys, s⟩ := y
  obtain ⟨rfl, answer⟩ := first
  cases r with
  | error e =>
    cases s with
    | error e' => exact ⟨rfl, rfl⟩
    | ok b => cases answer
  | ok a =>
    cases s with
    | error e' => cases answer
    | ok b =>
      cases answer
      exact ⟨congrArg (xs ++ ·) (later a).notes, (later a).answer⟩

end Agree

/-- Two computations that end alike. If they end well they leave the same notes, though maybe in
another order. -/
structure Related (R : α → β → Prop) (x : Noted ν ε α) (y : Noted ν ε β) : Prop where
  ends : EndAlike R x.result y.result
  notes : ∀ a, x.result = .ok a → x.notes.Perm y.notes

namespace Related

theorem refl (x : Noted ν ε α) : Related Eq x x := ⟨.refl _, fun _ _ => .refl _⟩

theorem lift {R : α → β → Prop} {r : Except ε α} {s : Except ε β} (ends : EndAlike R r s) :
    Related R (lift r : Noted ν ε α) (lift s) := ⟨ends, fun _ _ => .refl _⟩

theorem bind {R : α → β → Prop} {S : γ → δ → Prop} {x : Noted ν ε α} {y : Noted ν ε β}
    {f : α → Noted ν ε γ} {g : β → Noted ν ε δ} (first : Related R x y)
    (later : ∀ a b, R a b → Related S (f a) (g b)) : Related S (x >>= f) (y >>= g) := by
  obtain ⟨xs, r⟩ := x
  obtain ⟨ys, s⟩ := y
  obtain ⟨ends, notes⟩ := first
  cases r with
  | error e =>
    cases s with
    | error e' => exact ⟨trivial, nofun⟩
    | ok b => cases ends
  | ok a =>
    cases s with
    | error e' => cases ends
    | ok b =>
      obtain ⟨laterEnds, laterNotes⟩ := later a b ends
      exact ⟨laterEnds, fun c done => (notes a rfl).append (laterNotes c done)⟩

theorem bind_same {S : γ → δ → Prop} (x : Noted ν ε α) {f : α → Noted ν ε γ}
    {g : α → Noted ν ε δ} (later : ∀ a, Related S (f a) (g a)) :
    Related S (x >>= f) (x >>= g) :=
  bind (refl x) fun a _ same => same ▸ later a

end Related
end Noted
end SessionPlan
