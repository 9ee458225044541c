import SessionPlan.Document.Fields
import SessionPlan.Proofs.Lists
import SessionPlan.Proofs.Tree.Alike

/-! Which value a field gets, and which conflicts there are, when the occurrences of fields come in
another order. Only those of one field under one rank have to keep their order among themselves. -/
namespace SessionPlan.Document

/-! ### Occurrences in another order -/

variable {F : Type} {S : F → Tree → Tree → Prop}

/-- The same occurrence with a value that stands for the first one. -/
structure Revalued (S : F → Tree → Tree → Prop) (o o' : Occurrence F) : Prop where
  field : o.field = o'.field
  rank : o.rank = o'.rank
  key : o.key = o'.key
  value : S o.field o.value o'.value

variable [DecidableEq F]

/-- Occurrences of the same fields. Those of one field under one rank come in the same order. -/
structure Reordered (S : F → Tree → Tree → Prop) (found found' : List (Occurrence F)) : Prop where
  fields : (found.map (·.field)).Perm (found'.map (·.field))
  within : ∀ f r, List.Forall₂ (Revalued S) ((found.filter (·.field = f)).filter (·.rank = r))
    ((found'.filter (·.field = f)).filter (·.rank = r))

/-- Two occurrences of one field under one rank. -/
def Occurrence.Ties (o o' : Occurrence F) : Prop := o.field = o'.field ∧ o.rank = o'.rank

theorem Reordered.of_forall₂ {found found' : List (Occurrence F)}
    (values : List.Forall₂ (Revalued S) found found') : Reordered S found found' := by
  constructor
  · rw [map_eq_of_forall₂ (fun _ _ value => value.field) values]
  · intro f r
    exact List.rel_filter (fun o o' (h : Revalued S o o') => by simp only [h.rank])
      (List.rel_filter (fun o o' (h : Revalued S o o') => by simp only [h.field]) values)

/-- Without ties there is no order to keep. -/
theorem Reordered.of_perm {found between found' : List (Occurrence F)}
    (perm : found.Perm between) (untied : found.Pairwise fun o o' => ¬o.Ties o')
    (values : List.Forall₂ (Revalued S) between found') : Reordered S found found' := by
  have changed := Reordered.of_forall₂ values
  constructor
  · exact (perm.map _).trans changed.fields
  · intro f r
    have ties : ∀ o ∈ (found.filter (·.field = f)).filter (·.rank = r),
        o.field = f ∧ o.rank = r := by
      intro o member
      simp only [List.mem_filter, decide_eq_true_eq] at member
      exact ⟨member.1.2, member.2⟩
    have same : (found.filter (·.field = f)).filter (·.rank = r) =
        (between.filter (·.field = f)).filter (·.rank = r) := by
      apply eq_of_perm_of_untied ((perm.filter _).filter _) ((untied.filter _).filter _)
      intro o first o' second
      exact ⟨(ties o first).1.trans (ties o' second).1.symm,
        (ties o first).2.trans (ties o' second).2.symm⟩
    rw [same]
    exact changed.within f r

theorem Reordered.append {found found' later later' : List (Occurrence F)}
    (first : Reordered S found found') (second : Reordered S later later') :
    Reordered S (found ++ later) (found' ++ later') := by
  constructor
  · rw [List.map_append, List.map_append]
    exact first.fields.append second.fields
  · intro f r
    simp only [List.filter_append]
    exact List.rel_append (first.within f r) (second.within f r)

theorem mem_ranked {f : F} {found : List (Occurrence F)} {o : Occurrence F}
    (member : o ∈ ranked f found) : o.field = f := by
  rw [ranked, List.mem_mergeSort] at member
  exact of_decide_eq_true (List.mem_filter.mp member).2

/-- The strongest first, the occurrences of a field are the same but for their values. -/
theorem Reordered.strongest {found found' : List (Occurrence F)}
    (order : Reordered S found found') (f : F) :
    List.Forall₂ (Revalued S) (ranked f found) (ranked f found') := by
  rw [ranked, ranked]
  apply forall₂_of_ranks (mergeSort_sorted _ _) (mergeSort_sorted _ _)
  intro r
  rw [filter_mergeSort, filter_mergeSort]
  exact order.within f r

theorem Reordered.chosen {found found' : List (Occurrence F)} (order : Reordered S found found')
    (f : F) : Option.Rel (S f) (valueOf? found f) (valueOf? found' f) := by
  have strongest := order.strongest f
  have known : ∀ o ∈ ranked f found, o.field = f := fun o => mem_ranked
  rw [valueOf?, valueOf?]
  generalize ranked f found = first at strongest known ⊢
  generalize ranked f found' = second at strongest ⊢
  cases strongest with
  | nil => exact .none
  | @cons o _ _ _ winner _ =>
    have value := winner.value
    rw [known o List.mem_cons_self] at value
    exact .some value

/-- The winner has the same key, and so have all that differ from it. -/
theorem Reordered.conflictsOf_eq {found found' : List (Occurrence F)}
    (order : Reordered S found found') (alike : ∀ f x y, S f x y → Tree.Alike x y)
    (v : Vocabulary F) (path : String) (f : F) :
    conflictsOf v path found f = conflictsOf v path found' f := by
  have strongest := order.strongest f
  rw [conflictsOf, conflictsOf]
  generalize ranked f found = first at strongest ⊢
  generalize ranked f found' = second at strongest ⊢
  cases strongest with
  | nil => rfl
  | cons winner others =>
    have winnerAlike := alike _ _ _ winner.value
    simp only [winner.key]
    induction others with
    | nil => rfl
    | cons loser _ ih =>
      have equal := (alike _ _ _ loser.value).equals winnerAlike
      simp only [List.filter_cons, equal]
      split
      · simp only [List.map_cons, ih, loser.key]
      · exact ih

/-- The same conflicts are found, though maybe in another order. -/
theorem Reordered.conflicts_perm {found found' : List (Occurrence F)}
    (order : Reordered S found found') (alike : ∀ f x y, S f x y → Tree.Alike x y)
    (v : Vocabulary F) (path : String) :
    (conflicts v path found).Perm (conflicts v path found') := by
  have fields : (found.map (·.field)).eraseDups.Perm (found'.map (·.field)).eraseDups := by
    rw [List.perm_ext_iff_of_nodup (nodup_eraseDups _) (nodup_eraseDups _)]
    intro f
    rw [List.mem_eraseDups, List.mem_eraseDups, order.fields.mem_iff]
  have each : conflictsOf v path found = conflictsOf v path found' :=
    funext (order.conflictsOf_eq alike v path)
  rw [conflicts, conflicts, each]
  exact fields.flatMap_right _

end SessionPlan.Document
