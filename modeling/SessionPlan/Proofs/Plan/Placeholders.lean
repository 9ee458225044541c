import SessionPlan.Plan

/-! A command that holds no placeholder is left as it is, whatever its scope defines. -/
namespace SessionPlan

theorem Text.replaceFrom_of_absent {old new s : List Char} (absent : ¬old <:+: s) :
    Text.replaceFrom old new 0 s = s := by
  induction s with
  | nil => rfl
  | cons c rest ih =>
    have not_here : ¬old.isPrefixOf (c :: rest) = true := fun found =>
      absent (List.isPrefixOf_iff_prefix.mp found).isInfix
    have not_later : ¬old <:+: rest := fun found =>
      absent (found.trans (List.suffix_cons c rest).isInfix)
    rw [Text.replaceFrom, if_neg not_here, ih not_later]

theorem Text.replace_of_absent {s old : String} (new : String)
    (absent : ¬old.toList <:+: s.toList) : Text.replace s old new = s := by
  rw [Text.replace, Text.replaceFrom_of_absent absent, String.ofList_toList]

namespace Scope

/-- The command holds none of the placeholders, defined or not. -/
def Leaves (s : Scope) (command : String) : Prop :=
  ∀ p ∈ s.placeholders, ¬p.1.toList <:+: command.toList

theorem fill_of_leaves {s : Scope} {command : String} (h : s.Leaves command) :
    s.fill command = command := by
  unfold Leaves at h
  unfold fill
  generalize s.placeholders = placeholders at h ⊢
  induction placeholders with
  | nil => rfl
  | cons p rest ih =>
    obtain ⟨placeholder, value⟩ := p
    have first := h (placeholder, value) List.mem_cons_self
    have later := ih fun q member => h q (List.mem_cons_of_mem _ member)
    rw [List.foldl_cons]
    cases value with
    | none => exact later
    | some v => simp only [Text.replace_of_absent v first, later]

end Scope
end SessionPlan
