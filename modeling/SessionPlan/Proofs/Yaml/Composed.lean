import SessionPlan.Proofs.Yaml.Scans
import SessionPlan.Yaml.Node

/-! What stops the tokens of a text from becoming nodes: a flaw, or whatever the tokens end in. -/
namespace SessionPlan.Yaml
namespace Composition

/-- Where the tokens run out for a failure, it is a flaw or one of these faults. -/
def EndsIn (faults : Fault → Prop) (s : Composition) : Prop :=
  ∀ e, s.ending = some e → e.Among faults

/-- The computation stops at a flaw or at one of these faults, and otherwise the tokens end as they
did before. -/
abbrev Composes (faults : Fault → Prop) (x : Except Error (α × Composition)) : Prop :=
  Yields (Error.Among faults) (fun found => found.2.EndsIn faults) x

variable {faults : Fault → Prop} {s : Composition}

theorem EndsIn.next (h : s.EndsIn faults) : s.next.EndsIn faults := h

theorem EndsIn.place (h : s.EndsIn faults) (anchor : Option String) (node : Node) :
    (s.place anchor node).2.EndsIn faults := h

theorem peek_composes (h : s.EndsIn faults) : Yields (Error.Among faults) (fun _ => True) s.peek := by
  unfold peek
  split
  · exact .ok trivial
  · rename_i e _ ending
    exact .error (h e ending)
  · exact .ok trivial

theorem readAnchor_composes (p : Properties) (h : s.EndsIn faults) :
    Composes faults (s.readAnchor p) := by
  refine (peek_composes h).bind fun t _ => ?_
  split
  · exact .ok h
  · exact .ok h

theorem readTag_composes (p : Properties) (h : s.EndsIn faults) :
    Composes faults (s.readTag p) := by
  refine (peek_composes h).bind fun t _ => ?_
  split
  · exact .ok h
  · exact .ok h

theorem properties_composes (h : s.EndsIn faults) : Composes faults s.properties := by
  refine (readAnchor_composes _ h).bind fun anchored h => ?_
  exact (readTag_composes _ h).bind fun tagged h => .ite (readAnchor_composes _ h) (.ok h)

theorem fullTag_composes (s : Composition) (p : Properties) :
    Yields (Error.Among faults) (fun _ => True) (s.fullTag p) := by
  unfold fullTag
  split
  · exact .ok trivial
  · exact .ok trivial
  · split
    · exact .ok trivial
    · exact .error trivial

theorem checkAnchor_composes (s : Composition) (anchor : Option String) (line : Nat) :
    Yields (Error.Among faults) (fun _ => True) (s.checkAnchor anchor line) := by
  unfold checkAnchor
  split
  · exact .ok trivial
  · split
    · exact .error trivial
    · exact .ok trivial

theorem emptyOrFail_composes (p : Properties) (tag : Option String) (line : Nat) (t : Placed)
    (h : s.EndsIn faults) : Composes faults (emptyOrFail p tag line t s) := by
  unfold emptyOrFail
  dsimp only
  split
  · exact .error trivial
  · exact (checkAnchor_composes s p.anchor line).bind fun _ _ => .ok h

mutual

theorem node_composes (place : Place) (fuel : Nat) {s : Composition} (h : s.EndsIn faults) :
    Composes faults (node place fuel s) := by
  match fuel with
  | 0 =>
    rw [node]
    exact .error trivial
  | fuel + 1 =>
    rw [node]
    refine (peek_composes h).bind fun first _ => ?_
    dsimp only
    split
    · split
      · exact .error trivial
      · exact .ok h
    · refine (properties_composes h).bind fun described h => ?_
      refine (fullTag_composes _ _).bind fun tag _ => ?_
      refine (peek_composes h).bind fun t _ => ?_
      have checked : Yields (Error.Among faults) (fun _ => True)
          (described.2.checkAnchor described.1.anchor (described.1.line.getD t.line)) :=
        checkAnchor_composes _ _ _
      have absent := emptyOrFail_composes described.1 tag (described.1.line.getD t.line) t h
      split
      · exact .ite (checked.bind fun _ _ =>
          (indentlessItems_composes fuel (h.place _ _)).bind fun _ h => .ok h) absent
      · exact checked.bind fun _ _ => .ok h
      · exact checked.bind fun _ _ =>
          (flowItems_composes true fuel (h.next.place _ _)).bind fun _ h => .ok h
      · exact checked.bind fun _ _ =>
          (flowEntries_composes true fuel (h.next.place _ _)).bind fun _ h => .ok h
      · exact .ite (checked.bind fun _ _ =>
          (blockItems_composes fuel (h.next.place _ _)).bind fun _ h => .ok h) absent
      · exact .ite (checked.bind fun _ _ =>
          (blockEntries_composes fuel (h.next.place _ _)).bind fun _ h => .ok h) absent
      · exact absent

theorem nodeUnless_composes (place : Place) (absent : List Token) (line fuel : Nat)
    {s : Composition} (h : s.EndsIn faults) :
    Composes faults (nodeUnless place absent line fuel s) := by
  match fuel with
  | 0 =>
    rw [nodeUnless]
    exact .error trivial
  | fuel + 1 =>
    rw [nodeUnless]
    exact (peek_composes h).bind fun t _ => .ite (.ok h) (node_composes place fuel h)

theorem blockItems_composes (fuel : Nat) {s : Composition} (h : s.EndsIn faults) :
    Composes faults (blockItems fuel s) := by
  match fuel with
  | 0 =>
    rw [blockItems]
    exact .error trivial
  | fuel + 1 =>
    rw [blockItems]
    refine (peek_composes h).bind fun t _ => ?_
    split
    · exact (nodeUnless_composes _ _ _ fuel h.next).bind fun _ h =>
        (blockItems_composes fuel h).bind fun _ h => .ok h
    · exact .ok h
    · exact .error trivial

theorem indentlessItems_composes (fuel : Nat) {s : Composition} (h : s.EndsIn faults) :
    Composes faults (indentlessItems fuel s) := by
  match fuel with
  | 0 =>
    rw [indentlessItems]
    exact .error trivial
  | fuel + 1 =>
    rw [indentlessItems]
    refine (peek_composes h).bind fun t _ => ?_
    split
    · exact (nodeUnless_composes _ _ _ fuel h.next).bind fun _ h =>
        (indentlessItems_composes fuel h).bind fun _ h => .ok h
    · exact .ok h

theorem blockEntries_composes (fuel : Nat) {s : Composition} (h : s.EndsIn faults) :
    Composes faults (blockEntries fuel s) := by
  match fuel with
  | 0 =>
    rw [blockEntries]
    exact .error trivial
  | fuel + 1 =>
    rw [blockEntries]
    refine (peek_composes h).bind fun t _ => ?_
    split
    · refine (nodeUnless_composes _ _ _ fuel h.next).bind fun key h => ?_
      refine (peek_composes h).bind fun v _ => ?_
      dsimp only
      split
      · exact (nodeUnless_composes _ _ _ fuel h.next).bind fun _ h =>
          (blockEntries_composes fuel h).bind fun _ h => .ok h
      · rw [pure_bind]
        exact (blockEntries_composes fuel (h.place _ _)).bind fun _ h => .ok h
    · exact .ok h
    · exact .error trivial

theorem flowItems_composes (first : Bool) (fuel : Nat) {s : Composition} (h : s.EndsIn faults) :
    Composes faults (flowItems first fuel s) := by
  match fuel with
  | 0 =>
    rw [flowItems]
    exact .error trivial
  | fuel + 1 =>
    have goesOn (item : Nat) {s : Composition} (h : s.EndsIn faults) :
        Composes faults (flowItems false fuel s >>= fun found =>
          pure (item :: found.1, found.2)) :=
      (flowItems_composes false fuel h).bind fun _ h => .ok h
    rw [flowItems]
    refine (peek_composes h).bind fun t _ => .ite (.ok h) (.ite (.error trivial) ?_)
    have item : (if first = true then s else s.next).EndsIn faults := by split <;> exact h
    generalize (if first = true then s else s.next) = s at item
    refine (peek_composes item).bind fun t _ => ?_
    split
    · refine (nodeUnless_composes _ _ _ fuel item.next).bind fun key h => ?_
      refine (peek_composes h).bind fun v _ => ?_
      dsimp only
      split
      · exact (nodeUnless_composes _ _ _ fuel h.next).bind fun _ h => goesOn _ (h.place _ _)
      · rw [pure_bind]
        exact goesOn _ ((h.place none (emptyNode v.line)).place _ _)
    · exact .ok item
    · exact (node_composes _ fuel item).bind fun found h => goesOn found.1 h

theorem flowEntries_composes (first : Bool) (fuel : Nat) {s : Composition}
    (h : s.EndsIn faults) : Composes faults (flowEntries first fuel s) := by
  match fuel with
  | 0 =>
    rw [flowEntries]
    exact .error trivial
  | fuel + 1 =>
    have goesOn (entry : Nat × Nat) {s : Composition} (h : s.EndsIn faults) :
        Composes faults (flowEntries false fuel s >>= fun found =>
          pure (entry :: found.1, found.2)) :=
      (flowEntries_composes false fuel h).bind fun _ h => .ok h
    rw [flowEntries]
    refine (peek_composes h).bind fun t _ => .ite (.ok h) (.ite (.error trivial) ?_)
    have entry : (if first = true then s else s.next).EndsIn faults := by split <;> exact h
    generalize (if first = true then s else s.next) = s at entry
    refine (peek_composes entry).bind fun t _ => ?_
    split
    · refine (nodeUnless_composes _ _ _ fuel entry.next).bind fun key h => ?_
      refine (peek_composes h).bind fun v _ => ?_
      dsimp only
      split
      · exact (nodeUnless_composes _ _ _ fuel h.next).bind fun value h =>
          goesOn (key.1, value.1) h
      · rw [pure_bind]
        exact goesOn (key.1, _) (h.place _ _)
    · exact .ok entry
    · refine (node_composes _ fuel entry).bind fun key h => ?_
      exact (peek_composes h).bind fun v _ => goesOn (key.1, _) (h.place _ _)

end

theorem directives_composes (versioned : Bool) (handles : List (String × String)) (fuel : Nat)
    (h : s.EndsIn faults) :
    Yields (Error.Among faults) (EndsIn faults) (directives versioned handles fuel s) := by
  induction fuel generalizing s versioned handles with
  | zero => exact .ok h
  | succ fuel ih =>
    rw [directives]
    refine (peek_composes h).bind fun t _ => ?_
    split
    · exact .ite (.error trivial) (.ite (.error trivial) (ih _ _ h.next))
    · exact .ite (.error trivial) (ih _ _ h.next)
    · exact ih _ _ h.next
    · exact .ok h

theorem documentStart?_composes (h : s.EndsIn faults) :
    Yields (Error.Among faults) (fun begun => ∀ found, begun = some found → found.2.EndsIn faults)
      s.documentStart? := by
  have skipped : s.skipDocumentEnds.EndsIn faults := h
  refine (peek_composes skipped).bind fun t _ => .ite (.ok fun _ found => by cases found) ?_
  refine (directives_composes _ _ _ skipped).bind fun s h => ?_
  refine (peek_composes h).bind fun mark _ => .ite (.error trivial) (.ok ?_)
  rintro _ ⟨⟩
  exact h

theorem documentNode_composes (explicit : Bool) (h : s.EndsIn faults) :
    Composes faults (documentNode explicit s) :=
  (peek_composes h).bind fun _ _ => .ite (.ok h) (node_composes _ _ h)

theorem documentEnd_composes (h : s.EndsIn faults) :
    Yields (Error.Among faults) (EndsIn faults) s.documentEnd :=
  (peek_composes h).bind fun _ _ => .ite (.ok h) (.ok h)

theorem document?_failsOnly (h : s.EndsIn faults) :
    FailsOnly (Error.Among faults) s.document? := by
  suffices Yields (Error.Among faults) (fun _ => True) s.document? from this.fails
  refine (peek_composes h).bind fun first _ => ?_
  extract_lets goesOn
  have continues (begun : Option (Bool × Composition))
      (h : ∀ found, begun = some found → found.2.EndsIn faults) :
      Yields (Error.Among faults) (fun _ => True) (goesOn begun) := by
    dsimp only [goesOn]
    split
    · exact .ok trivial
    · refine (documentNode_composes _ (h _ rfl)).bind fun found h => ?_
      refine (documentEnd_composes h).bind fun after h => ?_
      refine (documentStart?_composes h).bind fun begun _ => ?_
      split
      · exact .ok trivial
      · exact .error trivial
  have marked {started : Option (Nat × Composition)}
      (h : ∀ found, started = some found → found.2.EndsIn faults) (found : Bool × Composition)
      (begun : started.map (fun start => (true, start.2)) = some found) :
      found.2.EndsIn faults := by
    obtain ⟨start, known, rfl⟩ := Option.map_eq_some_iff.mp begun
    exact h start known
  split
  iterate 3
    refine (documentStart?_composes h).bind fun started h => ?_
    rw [pure_bind]
    exact continues _ (marked h)
  · rw [pure_bind]
    refine continues (some (false, { s with handles := defaultHandles })) ?_
    rintro _ ⟨⟩
    exact h

end Composition

/-- Only such escapes and such versions make a text fail without a flaw before it is nodes. -/
theorem compose_failsOnly (text : List Char) :
    FailsOnly (Error.Among (Unscanned text)) (compose text) := by
  unfold compose
  dsimp only
  split
  · exact .error trivial
  · refine Composition.document?_failsOnly fun e ended => tokens_among ?_
    exact ended

end SessionPlan.Yaml
