import SessionPlan.Proofs.Yaml.Scans
import SessionPlan.Yaml.Merge

/-! What merging leaves alone. Entries of mappings come and go and a `=` key becomes a text, but
scalars keep their texts, and nodes of all other types keep their tags. -/
namespace SessionPlan.Yaml.Graph

theorem node_fill (g : Graph) (n m : Nat) (content : Content) :
    (g.fill n content).node m =
      if n = m ∧ n < g.size then { g.node m with content } else g.node m := by
  unfold fill Graph.node size
  simp only [Array.getD_eq_getD_getElem?, Array.getElem?_modify]
  by_cases here : n = m
  · subst here
    by_cases inside : n < g.nodes.size
    · simp [inside]
    · simp [inside]
  · simp [here]

theorem node_retag (g : Graph) (n m : Nat) (tag : String) :
    (g.retag n tag).node m =
      if n = m ∧ n < g.size then { g.node m with tag } else g.node m := by
  unfold retag Graph.node size
  simp only [Array.getD_eq_getD_getElem?, Array.getElem?_modify]
  by_cases here : n = m
  · subst here
    by_cases inside : n < g.nodes.size
    · simp [inside]
    · simp [inside]
  · simp [here]

theorem standard_inj {a b : String} (h : standard a = standard b) : a = b :=
  String.append_right_inj _ |>.mp h

/-- The node is a mapping. -/
def IsMapping (g : Graph) (n : Nat) : Prop := ∃ entries, g.content n = .mapping entries

/-- The second graph has the nodes of the first, up to what merging changes. -/
structure Keeps (g h : Graph) : Prop where
  size : h.size = g.size
  scalar : ∀ n text, h.content n = .scalar text ↔ g.content n = .scalar text
  mapping : ∀ n, h.IsMapping n ↔ g.IsMapping n
  tag : ∀ n, (h.node n).tag = (g.node n).tag ∨
    (g.node n).tag = standard "value" ∧ (h.node n).tag = standard "str"

namespace Keeps
variable {g h k : Graph}

theorem refl (g : Graph) : Keeps g g :=
  ⟨rfl, fun _ _ => Iff.rfl, fun _ => Iff.rfl, fun _ => .inl rfl⟩

theorem trans (first : Keeps g h) (second : Keeps h k) : Keeps g k where
  size := second.size.trans first.size
  scalar n text := (second.scalar n text).trans (first.scalar n text)
  mapping n := (second.mapping n).trans (first.mapping n)
  tag n := by
    rcases second.tag n with same | ⟨value, str⟩
    · rw [same]
      exact first.tag n
    · rcases first.tag n with same | ⟨value', str'⟩
      · exact .inr ⟨same ▸ value, str⟩
      · exact .inr ⟨value', str⟩

/-- Other entries for a mapping. -/
theorem fill {n : Nat} (mapping : g.IsMapping n) (entries : List (Nat × Nat)) :
    Keeps g (g.fill n (.mapping entries)) := by
  obtain ⟨old, was⟩ := mapping
  refine ⟨size_fill _ _ _, fun m text => ?_, fun m => ?_, fun m => .inl ?_⟩
  · rw [content, node_fill]
    split
    · rename_i here
      rw [← here.1, was]
      exact ⟨nofun, nofun⟩
    · rfl
  · rw [IsMapping, content, node_fill]
    split
    · rename_i here
      rw [← here.1]
      exact ⟨fun _ => ⟨old, was⟩, fun _ => ⟨entries, rfl⟩⟩
    · rfl
  · rw [node_fill]
    split <;> rfl

/-- A `=` key is taken for a text. -/
theorem retag {n : Nat} (value : g.hasTag "value" n = true) :
    Keeps g (g.retag n (standard "str")) := by
  have content_retag (m : Nat) : (g.retag n (standard "str")).content m = g.content m := by
    rw [content, node_retag]
    split <;> rfl
  refine ⟨size_retag _ _ _, fun m text => ?_, fun m => ?_, fun m => ?_⟩
  · rw [content_retag]
  · rw [IsMapping, content_retag]
    rfl
  · rw [node_retag]
    split
    · rename_i here
      exact .inr ⟨here.1 ▸ beq_iff_eq.mp value, rfl⟩
    · exact .inl rfl

/-- Only texts may have been something else before. -/
theorem hasTag {name : String} {n : Nat} (kept : Keeps g h) (tagged : h.hasTag name n = true) :
    g.hasTag name n = true ∨ name = "str" ∧ g.hasTag "value" n = true := by
  unfold Graph.hasTag at *
  simp only [beq_iff_eq] at *
  rcases kept.tag n with same | ⟨value, str⟩
  · exact .inl (same ▸ tagged)
  · exact .inr ⟨standard_inj (tagged.symm.trans str), value⟩

end Keeps

theorem isMapping_of_entries {g : Graph} {n : Nat} (some : g.entries n ≠ []) : g.IsMapping n := by
  unfold entries at some
  split at some
  · rename_i found
    exact ⟨_, found⟩
  · exact absurd rfl some

theorem isMapping_of_firstMerge? {g : Graph} {n : Nat} {found : Nat × Nat}
    (first : g.firstMerge? n = some found) : g.IsMapping n := by
  refine isMapping_of_entries fun none => ?_
  simp [firstMerge?, none] at first

theorem settleKeys_keeps (g : Graph) (n : Nat) : Keeps g (g.settleKeys n) := by
  unfold settleKeys
  generalize g.entries n = entries
  induction entries generalizing g with
  | nil => exact .refl g
  | cons entry rest ih =>
    rw [List.foldl_cons]
    split
    · rename_i value
      exact (Keeps.retag value).trans (ih _)
    · exact ih g

/-- Merging stops only at a flaw. -/
theorem merge_keeps {faults : Fault → Prop} (fuel : Nat) (g : Graph) (n : Nat) :
    Yields (Error.Among faults) (Keeps g) (merge fuel g n) := by
  induction fuel generalizing g n with
  | zero => exact .ok (.refl g)
  | succ fuel ih =>
    have onward {h : Graph} (kept : Keeps g h) (m : Nat) :
        Yields (Error.Among faults) (Keeps g) (merge fuel h m) :=
      (ih h m).mono (fun _ => id) fun _ later => kept.trans later
    unfold merge
    split
    · exact .ok (settleKeys_keeps g n)
    · rename_i position source found
      have mapping := isMapping_of_firstMerge? found
      have without : Keeps g (g.withoutEntry n position) := .fill mapping _
      have ending {h : Graph} (kept : Keeps g h) (entries : List (Nat × Nat)) :
          Yields (Error.Among faults) (Keeps g)
            (merge fuel h n >>= fun k => pure (k.putFirst n entries)) :=
        (onward kept n).bind fun k kept =>
          .ok (kept.trans (.fill ((kept.mapping n).mpr mapping) _))
      dsimp only
      split
      · refine (onward without source).bind fun h kept => ?_
        rw [pure_bind]
        exact ending kept _
      · refine Yields.bind (Yields.foldlM without fun found item kept => ?_)
          fun found kept => ending kept found.2
        split
        · refine (onward kept item).bind fun h kept => ?_
          exact .ok kept
        · exact .error trivial
      · exact .error trivial

theorem merged_keeps {faults : Fault → Prop} (g : Graph) (n : Nat) :
    Yields (Error.Among faults) (Keeps g) (g.merged n) := merge_keeps _ g n

end SessionPlan.Yaml.Graph
