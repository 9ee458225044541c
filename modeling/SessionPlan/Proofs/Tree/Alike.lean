import SessionPlan.Tree.Basic
import Mathlib.Data.List.Forall2

/-! Trees that no comparison tells apart. A mapping has no order for a comparison, so one whose
entries are rearranged is such a tree, and so is whatever holds it. -/
namespace SessionPlan.Tree

/-- Whatever one of the trees is compared with, the other compares like it. -/
structure Alike (x x' : Tree) : Prop where
  left : ∀ y, same x y = same x' y
  right : ∀ y, same y x = same y x'
  equals_left : ∀ y, equals x y = equals x' y

namespace Alike

theorem refl (x : Tree) : Alike x x := ⟨fun _ => rfl, fun _ => rfl, fun _ => rfl⟩

theorem equals {x x' y y' : Tree} (first : Alike x x') (second : Alike y y') :
    Tree.equals x y = Tree.equals x' y' := by
  rw [first.equals_left y]
  unfold Tree.equals
  split
  · rfl
  · exact second.right x'

end Alike

/-- Keys stay, and each of them has a value that is alike. -/
def KeyedAlike (e e' : Tree × Tree) : Prop := e.1 = e'.1 ∧ Alike e.2 e'.2

theorem sameItems_congr {xs xs' : List Tree} (alike : List.Forall₂ Alike xs xs') :
    ∀ ys, sameItems xs ys = sameItems xs' ys ∧ sameItems ys xs = sameItems ys xs' := by
  induction alike with
  | nil => exact fun ys => ⟨rfl, rfl⟩
  | cons first _ ih =>
    intro ys
    cases ys with
    | nil => simp only [sameItems, and_self]
    | cons y ys =>
      simp only [sameItems]
      rw [first.left y, first.right y, (ih ys).1, (ih ys).2]
      exact ⟨rfl, rfl⟩

theorem alike_list {xs xs' : List Tree} (alike : List.Forall₂ Alike xs xs') :
    Alike (.list xs) (.list xs') := by
  have items := sameItems_congr alike
  have left (y : Tree) : same (.list xs) y = same (.list xs') y := by
    cases y with
    | list ys =>
      simp only [same]
      exact (items ys).1
    | _ => simp only [same, sameLeaf, integer?]
  refine ⟨left, ?_, left⟩
  intro y
  cases y with
  | list ys =>
    simp only [same]
    exact (items ys).2
  | _ => simp only [same, sameLeaf, integer?]

/-- Each entry is looked up on its own. -/
theorem sameEntries_eq_all (es fs : List (Tree × Tree)) :
    sameEntries es fs = es.all fun e => fs.any fun f => same e.1 f.1 && same e.2 f.2 := by
  induction es with
  | nil => simp only [sameEntries, List.all_nil]
  | cons e es ih =>
    obtain ⟨k, v⟩ := e
    rw [sameEntries, ih, List.all_cons]

theorem sameEntries_perm {es es' : List (Tree × Tree)} (perm : es.Perm es')
    (fs : List (Tree × Tree)) :
    sameEntries es fs = sameEntries es' fs ∧ sameEntries fs es = sameEntries fs es' := by
  simp only [sameEntries_eq_all]
  exact ⟨perm.all_eq, by simp only [perm.any_eq]⟩

theorem sameEntries_congr {es es' : List (Tree × Tree)} (alike : List.Forall₂ KeyedAlike es es')
    (fs : List (Tree × Tree)) :
    sameEntries es fs = sameEntries es' fs ∧ sameEntries fs es = sameEntries fs es' := by
  have seen (e : Tree × Tree) : (es.any fun f => same e.1 f.1 && same e.2 f.2) =
      es'.any fun f => same e.1 f.1 && same e.2 f.2 := by
    induction alike with
    | nil => rfl
    | cons first _ ih => rw [List.any_cons, List.any_cons, ih, first.1, first.2.right e.2]
  have all : (es.all fun e => fs.any fun f => same e.1 f.1 && same e.2 f.2) =
      es'.all fun e => fs.any fun f => same e.1 f.1 && same e.2 f.2 := by
    clear seen
    induction alike with
    | nil => rfl
    | cons first _ ih => simp only [List.all_cons, ih, first.1, first.2.left]
  simp only [sameEntries_eq_all]
  exact ⟨all, by simp only [seen]⟩

theorem alike_mapping {es between es' : List (Tree × Tree)} (perm : es.Perm between)
    (alike : List.Forall₂ KeyedAlike between es') : Alike (.mapping es) (.mapping es') := by
  have length : es.length = es'.length := perm.length_eq.trans alike.length_eq
  have entries (fs : List (Tree × Tree)) : sameEntries es fs = sameEntries es' fs ∧
      sameEntries fs es = sameEntries fs es' := by
    have moved := sameEntries_perm perm fs
    have changed := sameEntries_congr alike fs
    exact ⟨moved.1.trans changed.1, moved.2.trans changed.2⟩
  have left (y : Tree) : same (.mapping es) y = same (.mapping es') y := by
    cases y with
    | mapping fs =>
      simp only [same, length]
      rw [(entries fs).1]
    | _ => simp only [same, sameLeaf, integer?]
  refine ⟨left, ?_, left⟩
  intro y
  cases y with
  | mapping fs =>
    simp only [same, length]
    rw [(entries fs).2]
  | _ => simp only [same, sameLeaf, integer?]

end SessionPlan.Tree
