import SessionPlan.Proofs.Outcome
import SessionPlan.Problem

/-! How a computation can fail. What is said here of a sequence of steps follows from what is said
of each step. -/
namespace SessionPlan
open SessionPlan.Text

namespace Failure

/-- A problem, or one of these faults. -/
def Among (faults : Fault → Prop) : Failure → Prop
  | .problem _ => True
  | .fault f => faults f

theorem Among.mono {faults wider : Fault → Prop} (le : ∀ fault, faults fault → wider fault)
    (failure : Failure) (h : failure.Among faults) : failure.Among wider := by
  cases failure with
  | problem _ => trivial
  | fault fault => exact le fault h

end Failure

/-! ### Integers that are too long to be written -/

theorem ensureWritable_eq_ok {ns : List Int} :
    ensureWritable ns = .ok () ↔ ∀ n ∈ ns, isWritable n = true := by
  rw [ensureWritable, ← List.all_eq_true]
  split <;> simp_all

theorem ensureWritable_outcome (ns : List Int) :
    ((∀ n ∈ ns, isWritable n = true) ∧ ensureWritable ns = .ok ()) ∨
      ∃ n ∈ ns, isWritable n = false ∧ ensureWritable ns = .error (.fault .unwritable) := by
  by_cases writable : ns.all isWritable = true
  · exact .inl ⟨List.all_eq_true.mp writable, if_pos writable⟩
  · obtain ⟨n, member, long⟩ := List.all_eq_false.mp (Bool.eq_false_iff.mpr writable)
    exact .inr ⟨n, member, Bool.eq_false_iff.mpr long, if_neg writable⟩

/-- One question after the other is one question. -/
theorem ensureWritable_append (ns others : List Int) :
    ensureWritable (ns ++ others) = ensureWritable ns >>= fun _ => ensureWritable others := by
  rw [ensureWritable, ensureWritable, ensureWritable, List.all_append]
  cases ns.all isWritable <;> rfl

/-- An answer that is given once these integers have been written. -/
def afterWriting (ns : List Int) (a : α) : Except Failure α := do
  ensureWritable ns
  return a

theorem afterWriting_eq_ok {ns : List Int} {a b : α} :
    afterWriting ns a = .ok b ↔ (∀ n ∈ ns, isWritable n = true) ∧ a = b := by
  rw [← ensureWritable_eq_ok]
  cases ended : ensureWritable ns <;> simp [afterWriting, ended, bind, Except.bind, pure_eq_ok]

theorem afterWriting_eq_unwritable {ns : List Int} {a : α} :
    afterWriting ns a = .error (.fault .unwritable) ↔ ∃ n ∈ ns, isWritable n = false := by
  rw [afterWriting]
  rcases ensureWritable_outcome ns with ⟨writable, done⟩ | ⟨n, member, long, failed⟩
  · rw [done]
    refine iff_of_false nofun ?_
    rintro ⟨n, member, long⟩
    exact Bool.false_ne_true (long.symm.trans (writable n member))
  · rw [failed]
    exact iff_of_true rfl ⟨n, member, long⟩

theorem afterWriting_of_writable {ns : List Int} (writable : ∀ n ∈ ns, isWritable n = true)
    (a : α) : afterWriting ns a = .ok a :=
  afterWriting_eq_ok.mpr ⟨writable, rfl⟩

/-- It only matters whether one of the integers is too long. -/
theorem afterWriting_congr {ns others : List Int}
    (same : (∀ n ∈ ns, isWritable n = true) ↔ ∀ n ∈ others, isWritable n = true) (a : α) :
    afterWriting ns a = afterWriting others a := by
  have alike : ns.all isWritable = others.all isWritable := by
    rw [Bool.eq_iff_iff, List.all_eq_true, List.all_eq_true, same]
  rw [afterWriting, afterWriting, ensureWritable, ensureWritable, alike]

theorem ensureWritable_bind {ns others : List Int} {x : Except Failure α} {a : α}
    (next : x = afterWriting others a) :
    (ensureWritable ns >>= fun _ => x) = afterWriting (ns ++ others) a := by
  rw [next, afterWriting, afterWriting, ensureWritable_append]
  cases ensureWritable ns <;> rfl

theorem afterWriting_bind {ns others : List Int} {a : α} {f : α → Except Failure β} {b : β}
    (next : f a = afterWriting others b) :
    (afterWriting ns a >>= f) = afterWriting (ns ++ others) b := by
  rw [← ensureWritable_bind next, afterWriting]
  cases ensureWritable ns <;> rfl

theorem afterWriting_map {ns : List Int} {a : α} {g : α → β} :
    (afterWriting ns a >>= fun a => pure (g a) : Except Failure β) = afterWriting ns (g a) := by
  rw [afterWriting, afterWriting]
  cases ensureWritable ns <;> rfl

theorem mapM_afterWriting {f : α → Except Failure β} {ns : α → List Int} {g : α → β}
    {items : List α} (each : ∀ a ∈ items, f a = afterWriting (ns a) (g a)) :
    items.mapM f = afterWriting (items.flatMap ns) (items.map g) := by
  induction items with
  | nil => rfl
  | cons a rest ih =>
    have later := ih fun b member => each b (List.mem_cons_of_mem _ member)
    rw [List.mapM_cons, each a List.mem_cons_self]
    exact afterWriting_bind (later ▸ afterWriting_map)

/-- A rejection says what it is about, unless an integer in its words is too long. -/
theorem reject_outcome (cause : Cause) (path : String) :
    ((∀ n ∈ cause.integers, isWritable n = true) ∧
      (reject cause path : Except Failure α) = .error (.problem ⟨cause, path⟩)) ∨
    ∃ n ∈ cause.integers, isWritable n = false ∧
      (reject cause path : Except Failure α) = .error (.fault .unwritable) := by
  rcases ensureWritable_outcome cause.integers with
    ⟨writable, done⟩ | ⟨n, member, long, failed⟩
  · exact .inl ⟨writable, by rw [reject, done]; rfl⟩
  · exact .inr ⟨n, member, long, by rw [reject, failed]; rfl⟩

theorem reject_fails (cause : Cause) (path : String) :
    ∃ failure, (reject cause path : Except Failure α) = .error failure := by
  rcases reject_outcome cause path with ⟨-, failed⟩ | ⟨-, -, -, failed⟩
  all_goals exact ⟨_, failed⟩

@[simp] theorem reject_ne_ok (cause : Cause) (path : String) (a : α) : reject cause path ≠ .ok a := by
  obtain ⟨failure, failed⟩ := reject_fails (α := α) cause path
  rw [failed]
  exact nofun

/-- Nothing comes after a rejection. -/
theorem reject_bind (cause : Cause) (path : String) (f : α → Except Failure β) :
    (reject cause path >>= f) = reject cause path := by
  rw [reject, reject]
  cases SessionPlan.ensureWritable cause.integers <;> rfl

/-- Two rejections fail, each for reasons of its own. -/
theorem EndAlike.reject {R : α → β → Prop} (cause other : Cause) (path path' : String) :
    EndAlike R (reject cause path) (reject other path') := by
  obtain ⟨failure, failed⟩ := reject_fails (α := α) cause path
  obtain ⟨failure', failed'⟩ := reject_fails (α := β) other path'
  rw [failed, failed']
  trivial

theorem reject_eq {cause : Cause} (writable : ∀ n ∈ cause.integers, isWritable n = true)
    (path : String) : (reject cause path : Except Failure α) = .error (.problem ⟨cause, path⟩) := by
  rw [reject, ensureWritable_eq_ok.mpr writable]
  rfl

namespace Tree

theorem isWritable_iff {t : Tree} :
    t.isWritable = true ↔ ∀ n ∈ t.integers, Text.isWritable n = true :=
  List.all_eq_true

theorem isWritable_int {n : Int} : (Tree.int n).isWritable = true ↔ Text.isWritable n = true := by
  simp [isWritable, integers]

@[simp] theorem written_text (s : String) : (Tree.text s).written = .ok s := rfl

theorem written_outcome (t : Tree) :
    t.isWritable = true ∧ t.written = .ok t.plain ∨
      t.isWritable = false ∧ t.written = .error (.fault .unwritable) := by
  have whole : t.isWritable = t.integers.all Text.isWritable := rfl
  rw [written, ensureWritable, ← whole]
  cases t.isWritable with
  | true => exact .inl ⟨rfl, rfl⟩
  | false => exact .inr ⟨rfl, rfl⟩

theorem written_eq_ok {t : Tree} {s : String} :
    t.written = .ok s ↔ t.isWritable = true ∧ t.plain = s := by
  rcases t.written_outcome with ⟨writable, done⟩ | ⟨long, failed⟩
  · simp [writable, done]
  · simp [long, failed]

end Tree

/-- The computation fails in no other way than is allowed. -/
def FailsOnly (allowed : ε → Prop) (x : Except ε α) : Prop :=
  ∀ failure, x = .error failure → allowed failure

/-- If one of the integers is too long to be written, it is allowed to fail for that. -/
def Covers (allowed : Failure → Prop) (ns : List Int) : Prop :=
  ∀ n ∈ ns, isWritable n = false → allowed (.fault .unwritable)

theorem covers_append {allowed : Failure → Prop} {ns others : List Int} :
    Covers allowed (ns ++ others) ↔ Covers allowed ns ∧ Covers allowed others :=
  List.forall_mem_append

namespace FailsOnly
variable {allowed wider : ε → Prop}

theorem ok (a : α) : FailsOnly allowed (.ok a) := by
  intro failure h
  cases h

theorem error {failure : ε} (h : allowed failure) :
    FailsOnly allowed (.error failure : Except ε α) := by
  rintro _ ⟨⟩
  exact h

theorem ensureWritable {allowed : Failure → Prop} {ns : List Int}
    (covers : Covers allowed ns) :
    FailsOnly allowed (ensureWritable ns) := by
  rcases ensureWritable_outcome ns with ⟨-, done⟩ | ⟨n, member, unwritable, failed⟩
  · rw [done]
    exact ok ()
  · rw [failed]
    exact error (covers n member unwritable)

theorem reject {allowed : Failure → Prop} {cause : Cause} {path : String}
    (h : allowed (.problem ⟨cause, path⟩)) (plain : cause.integers = []) :
    FailsOnly allowed (reject cause path : Except Failure α) := by
  rw [reject_eq (by rw [plain]; exact nofun)]
  exact error h

/-- With integers in its words a rejection can fail as they do. -/
theorem rejectNumbers {allowed : Failure → Prop} {cause : Cause} {path : String}
    (h : allowed (.problem ⟨cause, path⟩))
    (covers : Covers allowed cause.integers) :
    FailsOnly allowed (SessionPlan.reject cause path : Except Failure α) := by
  rcases reject_outcome cause path with ⟨-, rejected⟩ | ⟨n, member, unwritable, failed⟩
  · rw [rejected]
    exact error h
  · rw [failed]
    exact error (covers n member unwritable)

theorem written {allowed : Failure → Prop} {t : Tree}
    (covers : Covers allowed t.integers) :
    FailsOnly allowed t.written := by
  rcases ensureWritable_outcome t.integers with ⟨-, done⟩ | ⟨n, member, unwritable, failed⟩
  · rw [Tree.written, done]
    exact ok _
  · rw [Tree.written, failed]
    exact error (covers n member unwritable)

theorem mono {x : Except ε α} (h : FailsOnly allowed x)
    (le : ∀ failure, allowed failure → wider failure) : FailsOnly wider x :=
  fun failure failed => le failure (h failure failed)

theorem bind {x : Except ε α} {f : α → Except ε β} (first : FailsOnly allowed x)
    (later : ∀ a, x = .ok a → FailsOnly allowed (f a)) : FailsOnly allowed (x >>= f) := by
  cases x with
  | error failure => exact error (first failure rfl)
  | ok a => exact later a rfl

theorem mapM {f : α → Except ε β} {items : List α}
    (each : ∀ a ∈ items, FailsOnly allowed (f a)) : FailsOnly allowed (items.mapM f) := by
  induction items with
  | nil => exact ok _
  | cons a rest ih =>
    rw [List.mapM_cons]
    exact (each a List.mem_cons_self).bind fun _ _ =>
      (ih fun b member => each b (List.mem_cons_of_mem _ member)).bind fun _ _ => ok _

end FailsOnly

/-- The computation fails only as allowed, and whatever it gives is as described. -/
structure Yields (allowed : ε → Prop) (described : α → Prop) (x : Except ε α) : Prop where
  fails : FailsOnly allowed x
  gives : ∀ a, x = .ok a → described a

namespace Yields
variable {allowed wider : ε → Prop} {described : α → Prop} {later : β → Prop}

theorem ok {a : α} (h : described a) : Yields allowed described (.ok a : Except ε α) where
  fails := .ok a
  gives := by
    rintro _ ⟨⟩
    exact h

theorem error {failure : ε} (h : allowed failure) :
    Yields allowed described (.error failure : Except ε α) where
  fails := .error h
  gives := nofun

theorem bind {x : Except ε α} {f : α → Except ε β} (first : Yields allowed described x)
    (next : ∀ a, described a → Yields allowed later (f a)) : Yields allowed later (x >>= f) := by
  cases x with
  | error failure => exact error (first.fails failure rfl)
  | ok a => exact next a (first.gives a rfl)

/-- Nothing is said of the failures, nor of the answers. -/
theorem whatever (x : Except ε α) : Yields (fun _ => True) (fun _ => True) x :=
  ⟨fun _ _ => trivial, fun _ _ => trivial⟩

theorem ite {b : Prop} [Decidable b] {x y : Except ε α} (first : Yields allowed described x)
    (other : Yields allowed described y) : Yields allowed described (if b then x else y) := by
  split
  · exact first
  · exact other

/-- What one step preserves is preserved by all of them. -/
theorem foldlM {f : β → α → Except ε β} {items : List α} {b : β} (start : later b)
    (each : ∀ b a, later b → Yields allowed later (f b a)) :
    Yields allowed later (items.foldlM f b) := by
  induction items generalizing b with
  | nil => exact ok start
  | cons a rest ih =>
    rw [List.foldlM_cons]
    exact (each b a start).bind fun _ => ih

theorem mono {x : Except ε α} {other : α → Prop} (h : Yields allowed described x)
    (failures : ∀ failure, allowed failure → wider failure)
    (answers : ∀ a, described a → other a) : Yields wider other x where
  fails := h.fails.mono failures
  gives a given := answers a (h.gives a given)

end Yields
end SessionPlan
