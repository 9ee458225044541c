import SessionPlan.Proofs.Document.WellFormed

/-! What can be said of every project that was built, whatever its document looks like. -/
namespace SessionPlan
open SessionPlan.Text

/-- The session begins in window `i`: in the first one unless another is selected, by its index or
as the first of its name. -/
def Project.StartsIn (p : Project) (i : Nat) : Prop :=
  match p.startupWindow with
  | none => i = 0
  | some (.index n) => n = p.windowBaseIndex + i
  | some (.name s) => p.windows[i]?.bind Window.name = some s ∧
      ∀ k < i, p.windows[k]?.bind Window.name ≠ some s

namespace Document

/-- A size is a positive integer in the decimals of some script, with a percent sign or without. -/
theorem IsSize.decimals {size : String} (h : IsSize size) :
    ∃ digits : List Char, (size.toList = digits ∨ size.toList = digits ++ ['%']) ∧
      (∀ c ∈ digits, isDecimal c = true) ∧ 0 < decimalsValue 0 digits := by
  refine ⟨(sizeDigits size).toList, ?_, ?_⟩
  · by_cases percent : size.toList.getLast? = some '%'
    · right
      rw [sizeDigits, if_pos percent, String.toList_ofList]
      exact (List.dropLast_append_getLast? '%' percent).symm
    · left
      rw [sizeDigits, if_neg percent]
  · obtain ⟨n, read, positive⟩ := h.positive
    rw [digitsInteger_eq_ok, integer?_digits h.digits] at read
    obtain ⟨⟨-, decimals⟩, value⟩ := Option.ite_none_right_eq_some.mp read
    have written := Option.some_inj.mp value
    exact ⟨List.all_eq_true.mp decimals, by omega⟩

/-- The window that is selected stands somewhere among the windows, and where it stands tells by
what it was selected. -/
theorem startsIn_of_window? {home : String} {p : Project} (formed : p.WellFormed home) {w : Window}
    (selected : p.window? p.startupWindow = some w) :
    ∃ i : Nat, p.windows[i]? = some w ∧ p.StartsIn i := by
  unfold Project.StartsIn
  cases given : p.startupWindow with
  | none =>
    rw [given, Project.window?, List.head?_eq_getElem?] at selected
    exact ⟨0, selected, rfl⟩
  | some selector =>
    rw [given, Project.window?, List.find?_eq_some_iff_getElem] at selected
    obtain ⟨chosen, i, inside, here, before⟩ := selected
    have found : p.windows[i]? = some w := by rw [List.getElem?_eq_getElem inside, here]
    refine ⟨i, found, ?_⟩
    cases selector with
    | index n =>
      have index : w.index = n := by simpa [Selector.selects] using chosen
      rw [← index]
      exact (formed.windows i w found).index
    | name s =>
      have named : w.name = some s := by simpa [Selector.selects] using chosen
      refine ⟨by rw [found]; exact named, fun k earlier => ?_⟩
      have other := before k earlier
      rw [List.getElem?_eq_getElem (Nat.lt_trans earlier inside)]
      simpa [Selector.selects] using other

/-- Whatever a document looks like, the project that is built from it is well formed, its sizes are
positive numbers, and the session begins in one of its windows and panes. -/
theorem build_invariant {home : String} {wishes : Wishes} {document : Tree} {p : Project}
    (built : (build home wishes document).result = .ok p) :
    p.WellFormed home ∧
    (∀ w ∈ p.windows, ∀ pane ∈ w.panes, ∀ s ∈ pane.splitSize, IsTrimmed s ∧
      ∃ digits : List Char, (s.toList = digits ∨ s.toList = digits ++ ['%']) ∧
        (∀ c ∈ digits, isDecimal c = true) ∧ 0 < decimalsValue 0 digits) ∧
    ∃ (i : Nat) (w : Window), p.windows[i]? = some w ∧ p.StartsIn i ∧
      ∀ n ∈ p.startupPane, p.paneBaseIndex ≤ n ∧ n < p.paneBaseIndex + w.panes.length := by
  have formed := build_wellFormed built
  refine ⟨formed, ?_, ?_⟩
  · intro w window pane member s given
    obtain ⟨i, found⟩ := List.mem_iff_getElem?.mp window
    obtain ⟨j, declared⟩ := List.mem_iff_getElem?.mp member
    have size := ((formed.windows i w found).panes j pane declared).splitSize s given
    exact ⟨size.trimmed, size.decimals⟩
  · obtain ⟨w, selected, inside⟩ := formed.startup
    obtain ⟨i, found, starts⟩ := startsIn_of_window? formed selected
    exact ⟨i, w, found, starts, inside⟩

/-- Windows and panes written in every way there is: as nothing, a command, a list, a mapping, and
a mapping that begins with a name. -/
def mixedDocument : Tree := .mapping [
  (.text "window_base_index", .int 0), (.text "startup_window", .text "main"),
  (.text "startup_pane", .int 2), (.text "on_start", .list [.text "echo\r\n1", .int 2]),
  (.text "windows", .list [.null, .text "top", .list [.text "a", .null],
    .mapping [(.text "main", .null), (.text "panes", .list [.text "vim",
      .mapping [(.text "split_size", .text " ٣0% "), (.text "split_from", .int 0)]])],
    .mapping [(.text "layout", .text " tiled "), (.text "panes", .mapping [
      (.text "logs", .text "tail")])]])]

def mixedProject : Project where
  sessionName := some "dev"
  windowBaseIndex := 0
  startupWindow := some (.name "main")
  startupPane := some 2
  onStart := ["echo 1", "2"]
  windows := [{ index := 0 }, { index := 1, panes := [{ commands := ["top"] }] },
    { index := 2, panes := [{ commands := ["a"] }, { index := 2 }] },
    { index := 3, name := some "main", panes := [{ commands := ["vim"] },
      { index := 2, splitFrom := some 0, splitSize := some "٣0%" }] },
    { index := 4, layout := some "tiled", panes := [{ name := some "logs", commands := ["tail"] }] }]

theorem build_mixedDocument :
    (build "/home/ann" { name := some "dev" } mixedDocument).result = .ok mixedProject :=
  eq_ok_of_toOption (by decide +kernel)

theorem build_invariant_mixed :
    mixedProject.WellFormed "/home/ann" ∧
    (∀ w ∈ mixedProject.windows, ∀ pane ∈ w.panes, ∀ s ∈ pane.splitSize, IsTrimmed s ∧
      ∃ digits : List Char, (s.toList = digits ∨ s.toList = digits ++ ['%']) ∧
        (∀ c ∈ digits, isDecimal c = true) ∧ 0 < decimalsValue 0 digits) ∧
    ∃ (i : Nat) (w : Window), mixedProject.windows[i]? = some w ∧ mixedProject.StartsIn i ∧
      ∀ n ∈ mixedProject.startupPane, mixedProject.paneBaseIndex ≤ n ∧
        n < mixedProject.paneBaseIndex + w.panes.length :=
  build_invariant build_mixedDocument

end Document
end SessionPlan
