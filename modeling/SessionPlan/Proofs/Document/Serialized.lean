import SessionPlan.Document.Format
import SessionPlan.Proofs.Document.RoundTrip
import SessionPlan.Proofs.Json.RoundTrip
import SessionPlan.Proofs.Snapshot.Frozen

/-! The text of a project. Every project that is built from a document or frozen from a live session
has a tree, and as JSON its text holds the tree, whatever its texts and numbers are. Only where a
number has more digits than can be written there is no text. -/
namespace SessionPlan
open SessionPlan.Text

/-- All sizes of splits in a project are positive numbers. -/
def Project.SizesFit (p : Project) : Prop :=
  ∀ w ∈ p.windows, ∀ pane ∈ w.panes, ∀ s ∈ pane.splitSize, Document.IsSize s

theorem Project.WellFormed.sizesFit {home : String} {p : Project} (formed : p.WellFormed home) :
    p.SizesFit := by
  intro w window pane member
  obtain ⟨i, found⟩ := List.mem_iff_getElem?.mp window
  obtain ⟨j, declared⟩ := List.mem_iff_getElem?.mp member
  exact ((formed.windows i w found).panes j pane declared).splitSize

/-- A live session tells nothing of how it was split. -/
theorem Snapshot.sizesFit_project (s : Snapshot) (shells : List String) :
    (s.project shells).SizesFit := by
  intro w window pane member size given
  rw [(mem_project_panes window pane member).2] at given
  cases given

namespace Document

/-- A size is written as a number if it has no percent sign, and its digits are a number. -/
theorem splitSizeTree_of_isSize {s : String} (size : IsSize s) :
    ∃ tree, splitSizeTree s = .ok tree := by
  by_cases percent : s.toList.getLast? = some '%'
  · exact ⟨.text s, splitSizeTree_percentage percent⟩
  · obtain ⟨n, -, -, -, written⟩ := size.splitSizeTree_count percent
    exact ⟨.int n, written⟩

theorem paneTree_of_sizes (home : String) {p : Pane} (sizes : ∀ s ∈ p.splitSize, IsSize s) :
    ∃ tree, paneTree home p = .ok tree := by
  obtain ⟨size, sized⟩ : ∃ size, p.splitSize.mapM splitSizeTree = .ok size := by
    cases given : p.splitSize with
    | none => exact ⟨none, rfl⟩
    | some s =>
      obtain ⟨tree, one⟩ := splitSizeTree_of_isSize (sizes s given)
      exact ⟨some tree, by simp [one]⟩
  rw [paneTree, paneFields_written sized, ok_bind]
  split <;> exact ⟨_, rfl⟩

theorem windowTree_of_sizes (home : String) {w : Window}
    (sizes : ∀ p ∈ w.panes, ∀ s ∈ p.splitSize, IsSize s) :
    ∃ tree, windowTree home w = .ok tree := by
  obtain ⟨trees, many⟩ := exists_mapM_eq_ok fun p member =>
    paneTree_of_sizes home (sizes p member)
  exact ⟨_, windowTree_eq many rfl⟩

/-- A project with such sizes has a document, which JSON text can hold. -/
theorem outline_of_sizesFit (home : String) {p : Project} (fit : p.SizesFit) :
    ∃ tree, outline home p = .ok tree ∧ tree.IsJson := by
  obtain ⟨trees, many⟩ := exists_mapM_eq_ok fun w member =>
    windowTree_of_sizes home (fit w member)
  exact ⟨_, outline_eq many, (projectMapping_isJson many).escape⟩

/-- Where projects come from: a document, with any variables and wishes, or a live session. -/
inductive Made (p : Project) : Prop where
  | built (home : String) (values : Variables) (wishes : Wishes) (document : Tree)
      (result : (normalize home values wishes document).result = .ok p)
  | frozen (s : Snapshot) (shells : List String) (result : s.freeze shells = .ok p)

theorem Made.sizesFit {p : Project} (made : Made p) : p.SizesFit := by
  cases made with
  | built home values wishes document result => exact (normalize_wellFormed result).sizesFit
  | frozen s shells result =>
    obtain ⟨_, -, same⟩ := bind_eq_ok.mp result
    cases same
    exact s.sizesFit_project shells

/-- What a tree is written as. -/
def Format.print : Format → Tree → String
  | .yaml => Yaml.documentText
  | .json => Json.documentText

/-- A project is written unless an integer in its tree has too many digits. -/
theorem dump_of_outline {home : String} {p : Project} {tree : Tree}
    (laidOut : outline home p = .ok tree) (f : Format) :
    dump home (.text f.name) p =
      if tree.isWritable then .ok (f.print tree) else .error (.fault .unwritable) := by
  have whole : tree.isWritable = tree.integers.all isWritable := rfl
  have named : format (.text f.name) = .ok f := by cases f <;> rfl
  rw [dump, laidOut, ok_bind, named, ok_bind]
  unfold render
  rw [ensureWritable, ← whole]
  cases tree.isWritable <;> cases f <;> rfl

end Document
end SessionPlan
