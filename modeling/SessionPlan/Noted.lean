/-! Computations that leave notes on their way. The notes stay when the computation fails. -/
namespace SessionPlan

structure Noted (ν ε α : Type) where
  notes : List ν
  result : Except ε α

namespace Noted

def pure (a : α) : Noted ν ε α := ⟨[], .ok a⟩

def fail (e : ε) : Noted ν ε α := ⟨[], .error e⟩

def note (n : ν) : Noted ν ε Unit := ⟨[n], .ok ()⟩

def bind (x : Noted ν ε α) (f : α → Noted ν ε β) : Noted ν ε β :=
  match x.result with
  | .ok a => ⟨x.notes ++ (f a).notes, (f a).result⟩
  | .error e => ⟨x.notes, .error e⟩

instance : Monad (Noted ν ε) where
  pure := Noted.pure
  bind := Noted.bind

/-- A computation without notes. -/
def lift (r : Except ε α) : Noted ν ε α := ⟨[], r⟩

instance : MonadLift (Except ε) (Noted ν ε) := ⟨lift⟩

def noteAll (ns : List ν) : Noted ν ε Unit := ⟨ns, .ok ()⟩

def mapNotes (f : ν → μ) (x : Noted ν ε α) : Noted μ ε α := ⟨x.notes.map f, x.result⟩

def mapError (f : ε → δ) (x : Noted ν ε α) : Noted ν δ α := ⟨x.notes, x.result.mapError f⟩

/-- A result with notes that are left only if it is an answer. -/
def ofAnswer (notes : α → List ν) (r : Except ε α) : Noted ν ε α :=
  match r with
  | .ok a => ⟨notes a, r⟩
  | .error _ => ⟨[], r⟩

theorem result_bind (x : Noted ν ε α) (f : α → Noted ν ε β) :
    (x.bind f).result = x.result.bind fun a => (f a).result := by
  unfold bind
  split <;> simp_all [Except.bind]

end Noted
end SessionPlan
