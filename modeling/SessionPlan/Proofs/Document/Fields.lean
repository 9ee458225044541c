import SessionPlan.Proofs.Json.Tree
import SessionPlan.Proofs.Outcome
import SessionPlan.Document.Fields
import SessionPlan.Document.Outline

/-! Fields that were written under their own names, each at most once, are read back as they are:
no name is unknown, none outranks another, and nothing is in conflict. -/
namespace SessionPlan.Document

variable {F : Type} [DecidableEq F]

/-- The fields of `order` that have a value, with it. -/
def given (order : List F) (value : F → Option Tree) : List (F × Tree) :=
  order.filterMap fun f => (value f).map fun t => (f, t)

/-- Entries of a mapping for these fields. -/
def written (v : Vocabulary F) (order : List F) (value : F → Option Tree) : List (Tree × Tree) :=
  (given order value).map fun (f, t) => Tree.field (v.canonical f) t

/-- Each field is found under its own name, and under it first. -/
def Coherent (v : Vocabulary F) : Prop := ∀ f, v.find? (v.canonical f) = some (f, 0)

theorem written_cons (v : Vocabulary F) (f : F) (order : List F) (value : F → Option Tree) :
    written v (f :: order) value =
      optionalField (v.canonical f) (value f) ++ written v order value := by
  cases found : value f <;> simp [written, given, optionalField, found]

@[simp] theorem written_nil (v : Vocabulary F) (value : F → Option Tree) :
    written v [] value = [] := rfl

theorem written_append (v : Vocabulary F) (first later : List F) (value : F → Option Tree) :
    written v (first ++ later) value = written v first value ++ written v later value := by
  simp [written, given]

omit [DecidableEq F] in
theorem mem_given {order : List F} {value : F → Option Tree} {f : F} {t : Tree} :
    (f, t) ∈ given order value ↔ f ∈ order ∧ value f = some t := by
  simp only [given, List.mem_filterMap, Option.map_eq_some_iff, Prod.mk.injEq]
  constructor
  · rintro ⟨g, member, u, found, rfl, rfl⟩; exact ⟨member, found⟩
  · rintro ⟨member, found⟩; exact ⟨f, member, t, found, rfl, rfl⟩

theorem written_eq_nil {v : Vocabulary F} {order : List F} {value : F → Option Tree}
    (h : written v order value = []) : ∀ f ∈ order, value f = none := by
  intro f member
  cases found : value f with
  | none => rfl
  | some t =>
    have known : (f, t) ∈ given order value := mem_given.mpr ⟨member, found⟩
    rw [List.map_eq_nil_iff.mp h] at known
    cases known

theorem filter_given {order : List F} (distinct : order.Nodup) (value : F → Option Tree) (f : F) :
    ((given order value).filter (·.1 = f)) =
      if f ∈ order then (value f).toList.map fun t => (f, t) else [] := by
  induction order with
  | nil => rfl
  | cons g order ih =>
    obtain ⟨apart, distinct⟩ := List.nodup_cons.mp distinct
    have step : given (g :: order) value =
        ((value g).toList.map fun t => (g, t)) ++ given order value := by
      cases found : value g <;> simp [given, found]
    rw [step, List.filter_append, ih distinct]
    by_cases same : g = f
    · subst same
      cases value g <;> simp [apart]
    · have other : f ≠ g := Ne.symm same
      cases value g <;> simp [same, other]

/-- A field that was written, as it is found again: under the first of its names. -/
def occurrence (v : Vocabulary F) (p : F × Tree) : Occurrence F := ⟨p.1, 1, v.canonical p.1, p.2⟩

theorem occurrences_written {v : Vocabulary F} (coherent : Coherent v) (order : List F)
    (value : F → Option Tree) (path : String) :
    (plainPairs (written v order value)).mapM (Pair.occurrence v path) =
      .ok ((given order value).map (occurrence v)) := by
  rw [plainPairs, written, List.map_map, List.mapM_map]
  apply mapM_eq_ok_of
  rintro ⟨f, t⟩ -
  simp [Pair.occurrence, Tree.field, Vocabulary.keyField?, coherent f, occurrence]

theorem ranked_written {v : Vocabulary F} {order : List F} (distinct : order.Nodup)
    (value : F → Option Tree) (f : F) :
    ranked f ((given order value).map (occurrence v)) =
      if f ∈ order then (value f).toList.map fun t => occurrence v (f, t) else [] := by
  have kept : ((given order value).map (occurrence v)).filter (·.field = f) =
      ((given order value).filter (·.1 = f)).map (occurrence v) := by
    rw [List.filter_map]; rfl
  rw [ranked, kept, filter_given distinct]
  by_cases member : f ∈ order
  · cases value f <;> simp [member]
  · simp [member]

theorem conflicts_written {v : Vocabulary F} {order : List F} (distinct : order.Nodup)
    (value : F → Option Tree) (path : String) :
    conflicts v path ((given order value).map (occurrence v)) = [] := by
  refine List.flatMap_eq_nil_iff.mpr fun f _ => ?_
  rw [conflictsOf, ranked_written distinct]
  by_cases member : f ∈ order
  · cases value f <;> simp [member]
  · simp [member]

theorem valueOf?_written {v : Vocabulary F} {order : List F} (distinct : order.Nodup)
    {value : F → Option Tree} (complete : ∀ f, f ∉ order → value f = none) :
    valueOf? ((given order value).map (occurrence v)) = value := by
  funext f
  rw [valueOf?, ranked_written distinct]
  by_cases member : f ∈ order
  · cases found : value f <;> simp [member, occurrence]
  · simp [member, complete f member]

/-- What was written is read back, without a conflict. -/
theorem readFields_written {v : Vocabulary F} (coherent : Coherent v) {order : List F}
    (distinct : order.Nodup) {value : F → Option Tree}
    (complete : ∀ f, f ∉ order → value f = none) (path : String) :
    readFields v path (plainPairs (written v order value)) = pure value := by
  rw [readFields, occurrences_written coherent, Noted.lift_ok, Noted.pure_bind,
    conflicts_written distinct, valueOf?_written distinct complete]
  rfl

/-- A mapping that begins with a field's name is a plain definition. -/
theorem entryPairs_written {v : Vocabulary F} (coherent : Coherent v) {order : List F}
    {value : F → Option Tree} (nonempty : written v order value ≠ []) (content path : String) :
    entryPairs v content path (written v order value) =
      .ok (plainPairs (written v order value)) := by
  cases entries : written v order value with
  | nil => exact absurd entries nonempty
  | cons first rest =>
    have member : first ∈ written v order value := by rw [entries]; exact List.mem_cons_self
    obtain ⟨⟨f, t⟩, -, rfl⟩ := List.mem_map.mp member
    simp [entryPairs, Tree.field, Vocabulary.keyField?, coherent f]
    rfl

theorem Coherent.canonical_injective {v : Vocabulary F} (coherent : Coherent v) {f g : F}
    (same : v.canonical f = v.canonical g) : f = g := by
  have found := coherent f
  rw [same, coherent g] at found
  cases found
  rfl

/-- A mapping of written fields can be held by JSON text if all their values can. -/
theorem isJson_written {v : Vocabulary F} (coherent : Coherent v) {order : List F}
    (distinct : order.Nodup) {value : F → Option Tree}
    (values : ∀ f, ∀ t ∈ value f, t.IsJson) :
    (Tree.mapping (written v order value)).IsJson := by
  rw [Tree.IsJson]
  induction order with
  | nil => exact ⟨trivial, .nil⟩
  | cons f order ih =>
    obtain ⟨apart, distinct⟩ := List.nodup_cons.mp distinct
    obtain ⟨parts, pairwise⟩ := ih distinct
    rw [written_cons]
    cases found : value f with
    | none => exact ⟨parts, pairwise⟩
    | some t =>
      refine ⟨⟨⟨_, rfl⟩, values f t found, parts⟩, List.pairwise_cons.mpr ⟨?_, pairwise⟩⟩
      intro entry member
      obtain ⟨⟨g, u⟩, known, rfl⟩ := List.mem_map.mp member
      have other : v.canonical f ≠ v.canonical g := by
        intro same
        rw [coherent.canonical_injective same] at apart
        exact apart (mem_given.mp known).1
      simpa [Tree.field, Tree.same, Tree.sameLeaf] using other

end SessionPlan.Document
