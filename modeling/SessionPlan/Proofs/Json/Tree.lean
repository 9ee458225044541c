import Mathlib.Data.List.Induction
import SessionPlan.Proofs.Tree.Entries
import SessionPlan.Proofs.Variables.Escape

/-! Trees that JSON text can hold without loss: no keys but texts, all different, and no values that
would be read back as something else. -/
namespace SessionPlan.Tree

mutual

/-- Texts, integers, flags and nulls, and lists and mappings of such trees. -/
def IsJson : Tree → Prop
  | .null | .flag _ | .int _ | .text _ => True
  | .list items => AreJson items
  | .mapping entries =>
    HaveJson entries ∧ entries.Pairwise fun first later => same first.1 later.1 = false
  | _ => False

def AreJson : List Tree → Prop
  | [] => True
  | x :: xs => IsJson x ∧ AreJson xs

def HaveJson : List (Tree × Tree) → Prop
  | [] => True
  | (key, value) :: rest => (∃ s, key = .text s) ∧ IsJson value ∧ HaveJson rest

end

mutual

theorem IsJson.isDocument : ∀ {t : Tree}, t.IsJson → t.IsDocument
  | .null, _ | .flag _, _ | .int _, _ | .text _, _ => trivial
  | .list items, h => by
    simp only [IsJson, IsDocument] at h ⊢
    exact AreJson.areDocuments h
  | .mapping entries, h => by
    simp only [IsJson, IsDocument] at h ⊢
    exact ⟨HaveJson.haveDocuments h.1, h.2⟩

theorem AreJson.areDocuments : ∀ {items : List Tree}, AreJson items → AreDocuments items
  | [], _ => trivial
  | _ :: _, h => ⟨IsJson.isDocument h.1, AreJson.areDocuments h.2⟩

theorem HaveJson.haveDocuments : ∀ {entries : List (Tree × Tree)},
    HaveJson entries → HaveDocuments entries
  | [], _ => trivial
  | (_, _) :: _, h => by
    obtain ⟨⟨s, rfl⟩, value, rest⟩ := h
    exact ⟨⟨trivial, rfl⟩, IsJson.isDocument value, HaveJson.haveDocuments rest⟩

end

theorem areJson_iff {items : List Tree} : AreJson items ↔ ∀ t ∈ items, t.IsJson := by
  induction items with
  | nil => simp [AreJson]
  | cons x xs ih => simp [AreJson, ih]

mutual

/-- Doubling dollar signs keeps keys apart and changes nothing else. -/
theorem IsJson.escape : ∀ {t : Tree}, t.IsJson → t.escape.IsJson
  | .null, _ | .flag _, _ | .int _, _ | .text _, _ => trivial
  | .list items, h => by
    simp only [IsJson, Tree.escape] at h ⊢
    exact AreJson.escapeItems h
  | .mapping entries, h => by
    have apart : (escapeEntries entries).Pairwise fun first later =>
        same first.1 later.1 = false := by
      have document := isDocument_escape (.mapping entries) h.isDocument
      simp only [Tree.escape, IsDocument] at document
      exact document.2
    simp only [IsJson, Tree.escape] at h ⊢
    exact ⟨HaveJson.escapeEntries h.1, apart⟩

theorem AreJson.escapeItems : ∀ {items : List Tree}, AreJson items → AreJson (escapeItems items)
  | [], _ => trivial
  | _ :: _, h => ⟨IsJson.escape h.1, AreJson.escapeItems h.2⟩

theorem HaveJson.escapeEntries : ∀ {entries : List (Tree × Tree)},
    HaveJson entries → HaveJson (escapeEntries entries)
  | [], _ => trivial
  | (_, _) :: _, h => by
    obtain ⟨⟨s, rfl⟩, value, rest⟩ := h
    exact ⟨⟨_, rfl⟩, IsJson.escape value, HaveJson.escapeEntries rest⟩

end

/-! ### Mappings of different keys -/

/-- Pairs with different keys are entered as they are. -/
theorem ofPairs_of_apart {pairs : List (Tree × Tree)}
    (apart : pairs.Pairwise fun first later => same first.1 later.1 = false) :
    ofPairs pairs = pairs := by
  induction pairs using List.reverseRecOn with
  | nil => rfl
  | append_singleton front last ih =>
    obtain ⟨before, -, fresh⟩ := List.pairwise_append.mp apart
    have entered := ih before
    rw [ofPairs] at entered
    rw [ofPairs, List.foldl_append, entered]
    exact insert_of_fresh fun entry member => fresh entry member last (by simp)

end SessionPlan.Tree
