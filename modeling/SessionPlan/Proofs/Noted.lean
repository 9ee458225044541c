import SessionPlan.Proofs.Lists
import SessionPlan.Proofs.Outcome

/-! Laws of computations that leave notes, and how such a computation goes through a list: it ends
well if it does for each item, and it ends with the first failure. -/
namespace SessionPlan.Noted

variable {ν ε α β γ : Type}

theorem ok_then (notes : List ν) (a : α) (f : α → Noted ν ε β) :
    ((⟨notes, .ok a⟩ : Noted ν ε α) >>= f) = ⟨notes ++ (f a).notes, (f a).result⟩ := rfl

theorem bind_of_ok {x : Noted ν ε α} {a : α} (done : x.result = .ok a) (f : α → Noted ν ε β) :
    (x >>= f) = ⟨x.notes ++ (f a).notes, (f a).result⟩ := by
  obtain ⟨notes, result⟩ := x
  cases done
  rfl

theorem bind_of_error {x : Noted ν ε α} {e : ε} (failed : x.result = .error e)
    (f : α → Noted ν ε β) : (x >>= f).result = .error e := by
  rw [result_bind_eq, failed]
  rfl

instance : LawfulMonad (Noted ν ε) := LawfulMonad.mk' _
  (fun ⟨notes, result⟩ => by
    cases result with
    | error e => rfl
    | ok a => exact congrArg (Noted.mk · (.ok a)) (List.append_nil notes))
  (fun a f => rfl)
  (fun ⟨notes, result⟩ f g => by
    cases result with
    | error e => rfl
    | ok a =>
      rw [ok_then, ok_then]
      obtain ⟨later, result⟩ := f a
      cases result with
      | error e => rfl
      | ok b => exact congrArg (Noted.mk · _) (List.append_assoc notes later _))

instance : LawfulMonadLift (Except ε) (Noted ν ε) where
  monadLift_pure _ := rfl
  monadLift_bind x f := by cases x <;> rfl

theorem result_map (f : α → β) (x : Noted ν ε α) : (f <$> x).result = f <$> x.result := by
  obtain ⟨notes, result⟩ := x
  cases result <;> rfl

theorem eq_pure_of_notes {x : Noted ν ε α} {a : α} (silent : x.notes = [])
    (result : x.result = .ok a) : x = Pure.pure a := by
  obtain ⟨notes, r⟩ := x
  cases silent
  cases result
  rfl

/-! ### Through a list -/

variable {f : α → Noted ν ε β}

/-- Each item gives the answer at its place, and the notes come one after the other. -/
theorem mapM_result_eq_ok {items : List α} {out : List β} :
    (items.mapM f).result = .ok out ↔ List.Forall₂ (fun a b => (f a).result = .ok b) items out := by
  induction items generalizing out with
  | nil =>
    rw [List.mapM_nil, result_pure, List.forall₂_nil_left_iff]
    exact ⟨fun h => by cases h; rfl, fun h => by rw [h]⟩
  | cons a rest ih =>
    rw [List.mapM_cons, result_bind_eq_ok, List.forall₂_cons_left_iff]
    constructor
    · rintro ⟨b, first, done⟩
      obtain ⟨later, others, same⟩ := result_bind_eq_ok.mp done
      cases same
      exact ⟨b, later, first, ih.mp others, rfl⟩
    · rintro ⟨b, later, first, others, rfl⟩
      exact ⟨b, first, result_bind_eq_ok.mpr ⟨later, ih.mpr others, rfl⟩⟩

theorem mapM_notes {items : List α} {out : List β} (done : (items.mapM f).result = .ok out) :
    (items.mapM f).notes = items.flatMap fun a => (f a).notes := by
  induction items generalizing out with
  | nil => rfl
  | cons a rest ih =>
    rw [List.mapM_cons] at done ⊢
    obtain ⟨b, first, done⟩ := result_bind_eq_ok.mp done
    obtain ⟨later, others, -⟩ := result_bind_eq_ok.mp done
    rw [bind_of_ok first, bind_of_ok others, List.flatMap_cons, ih others]
    exact congrArg _ (List.append_nil _)

theorem mapM_eq_pure {items : List α} {out : List β}
    (each : List.Forall₂ (fun a b => f a = Pure.pure b) items out) :
    items.mapM f = Pure.pure out := by
  induction each with
  | nil => rfl
  | cons first _ ih => rw [List.mapM_cons, first, pure_bind, ih, pure_bind]

/-- The first failure ends it. -/
theorem mapM_result_eq_error {before after : List α} {a : α} {e : ε}
    (each : ∀ b ∈ before, ∃ c, (f b).result = .ok c) (fails : (f a).result = .error e) :
    ((before ++ a :: after).mapM f).result = .error e := by
  induction before with
  | nil =>
    rw [List.nil_append, List.mapM_cons, bind_of_error fails]
  | cons b before ih =>
    obtain ⟨c, first⟩ := each b List.mem_cons_self
    have later := ih fun d member => each d (List.mem_cons_of_mem _ member)
    rw [List.cons_append, List.mapM_cons, bind_of_ok first, bind_of_error later]

/-- A list that ended well ends with the failure of the item that is put into it. -/
theorem mapM_set_result_eq_error {g : α × Nat → Noted ν ε β} {items : List α} {out : List β}
    (done : (items.zipIdx.mapM g).result = .ok out) {j : Nat} (inside : j < items.length) {a : α}
    {e : ε} (fails : (g (a, j)).result = .error e) :
    ((items.set j a).zipIdx.mapM g).result = .error e := by
  have length : (items.take j).length = j := List.length_take_of_le (Nat.le_of_lt inside)
  have place : (items.set j a).zipIdx =
      (items.take j).zipIdx ++ (a, j) :: (items.drop (j + 1)).zipIdx (j + 1) := by
    rw [List.set_eq_take_append_cons_drop, if_pos inside, List.zipIdx_append, List.zipIdx_cons,
      length, Nat.zero_add]
  have each := exists_of_forall₂ (mapM_result_eq_ok.mp done)
  rw [place]
  refine mapM_result_eq_error (fun b member => each b ?_) fails
  rw [← List.take_append_drop j items, List.zipIdx_append]
  exact List.mem_append_left _ member

end SessionPlan.Noted
