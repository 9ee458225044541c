import SessionPlan.Proofs.Document.Change

/-! Another value for one field. Which of a field's names is heard hangs on the names alone, so if
the value under that name is changed, the field has the new value, and the others have theirs. -/
namespace SessionPlan.Document

variable {F : Type} [DecidableEq F] {v : Vocabulary F} {content : String} {f : F}
variable {revise : Tree → Tree} {pairs : List Pair}

/-- Only the winner of the field has its value changed. -/
def reviseWinner (v : Vocabulary F) (f : F) (revise : Tree → Tree) (pairs : List Pair) : Change :=
  fun m p => some (if winner? v pairs f = some m then { p with value := revise p.value } else p)

theorem reviseWinner_keeps : (reviseWinner v f revise pairs).KeepsFields v where
  known m p q became field := by
    cases became
    split
    · exact ⟨field, rfl⟩
    · exact ⟨field, rfl⟩

/-- Who wins hangs on the keys alone. -/
theorem winner?_congr {others : List Pair}
    (same : pairs.map (fun p => (p.key, p.leading)) = others.map fun p => (p.key, p.leading)) :
    winner? v pairs = winner? v others := by
  have through (list : List Pair) (hit : Tree × Bool → Bool) :
      list.findIdx? (fun p => hit (p.key, p.leading)) =
        (list.map fun p => (p.key, p.leading)).findIdx? hit := by
    rw [List.findIdx?_map]
    rfl
  funext g
  rw [winner?, winner?, through pairs fun k => k.2 && v.field? k.1 = some g,
    through others fun k => k.2 && v.field? k.1 = some g, same]
  congr 1
  refine congrArg (fun g => (v.namesOf _).findSome? g) (funext fun name => ?_)
  rw [through pairs fun k => !k.2 && k.1.text? = some name,
    through others fun k => !k.2 && k.1.text? = some name, same]

/-- The winner's value is changed, and nothing else. -/
def revised (v : Vocabulary F) (f : F) (revise : Tree → Tree) (pairs : List Pair) (p : Pair × Nat) :
    Pair :=
  if winner? v pairs f = some p.2 then { p.1 with value := revise p.1.value } else p.1

theorem reviseWinner_pairs : (reviseWinner v f revise pairs).pairs 0 pairs =
    pairs.zipIdx.map (revised v f revise pairs) := by
  rw [Change.pairs, ← List.filterMap_eq_map]
  rfl

theorem winner?_reviseWinner :
    winner? v ((reviseWinner v f revise pairs).pairs 0 pairs) = winner? v pairs := by
  refine winner?_congr ?_
  have kept : (fun p => (p.key, p.leading)) ∘ revised v f revise pairs =
      (fun p => (p.key, p.leading)) ∘ Prod.fst := by
    funext p
    simp only [Function.comp_apply, revised]
    split <;> rfl
  rw [reviseWinner_pairs, List.map_map, kept, ← List.map_map, List.zipIdx_map_fst]

theorem chosen_reviseWinner (listed : v.Listed) (g : F) :
    chosen v ((reviseWinner v f revise pairs).pairs 0 pairs) g =
      if g = f then (chosen v pairs f).map revise else chosen v pairs g := by
  rw [chosen, winner?_reviseWinner, chosen, chosen]
  cases won : winner? v pairs g with
  | none =>
    split
    · rename_i same
      rw [← same, won]
      rfl
    · rfl
  | some m =>
    rw [Option.bind_some, reviseWinner_pairs, List.getElem?_map, List.getElem?_zipIdx]
    by_cases same : g = f
    · subst same
      rw [if_pos rfl, won, Option.bind_some, Option.map_map, Option.map_map, Option.map_map]
      refine Option.map_congr fun p _ => ?_
      simp [revised, won]
    · have other : winner? v pairs f ≠ some m := by
        intro both
        obtain ⟨p, here, named⟩ := winner?_eq_some listed won
        obtain ⟨q, there, named'⟩ := winner?_eq_some listed both
        rw [here] at there
        cases there
        rw [named] at named'
        exact same (Option.some.inj named')
      rw [if_neg same, Option.map_map, Option.map_map]
      refine Option.map_congr fun p _ => ?_
      simp [revised, other]

/-- Content is revised faithfully if its like comes in its place. -/
theorem faithful_reviseWinner {nameField : F} (short : Shorthand v content nameField f)
    (kindred : ∀ x, chosen v pairs f = some x → (∀ entries, x ≠ .mapping entries) →
      Kindred x (revise x)) : (reviseWinner v f revise pairs).Faithful v content pairs where
  toKeepsFields := reviseWinner_keeps
  name x after whole := by
    have other : winner? v pairs f ≠ some 0 := by
      intro won
      obtain ⟨p, here, named⟩ := winner?_eq_some short.complete.listed won
      rw [whole] at here
      cases here
      rw [short.name_field] at named
      exact short.apart (Option.some.inj named)
    rw [reviseWinner, if_neg other]
  content before x after whole own bare := by
    have won := short.content_wins whole own
    have given : chosen v pairs f = some x := by
      rw [chosen, won, whole]
      simp
    refine ⟨revise x, ?_, kindred x given bare⟩
    rw [reviseWinner, if_pos won]

theorem leaves_reviseWinner (same : ∀ x, chosen v pairs f = some x → revise x = x) :
    (reviseWinner v f revise pairs).Leaves 0 pairs := by
  intro ⟨p, m⟩ member
  rw [reviseWinner]
  split
  · rename_i won
    have here := List.mk_mem_zipIdx_iff_getElem?.mp member
    rw [same p.value (by rw [chosen, won, Option.bind_some, here]; rfl)]
  · rfl

/-- The entry with another value for its content. -/
def reviseEntry (v : Vocabulary F) (content : String) (f : F) (revise : Tree → Tree)
    (entry : Tree) : Tree :=
  (reviseWinner v f revise (mentions v content entry)).entry v content entry

/-- It is read with that value, and with those that its other fields had. -/
theorem reviseEntry_read {nameField : F} (short : Shorthand v content nameField f) {entry : Tree}
    (kindred : ∀ x, chosen v (mentions v content entry) f = some x →
      (∀ entries, x ≠ .mapping entries) → Kindred x (revise x))
    (readable : Readable v content entry) :
    Readable v content (reviseEntry v content f revise entry) ∧
      ∀ g, chosen v (mentions v content (reviseEntry v content f revise entry)) g =
        if g = f then (chosen v (mentions v content entry) f).map revise
        else chosen v (mentions v content entry) g := by
  have faithful := faithful_reviseWinner short kindred
  refine ⟨Change.readable_entry readable faithful fun some => ?_, fun g => ?_⟩
  · simpa [reviseWinner_pairs] using some
  · rw [reviseEntry, Change.mentions_entry readable faithful]
    exact chosen_reviseWinner short.complete.listed g

end SessionPlan.Document
