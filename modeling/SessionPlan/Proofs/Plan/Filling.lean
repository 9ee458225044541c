import SessionPlan.Proofs.Outcome
import SessionPlan.Proofs.Plan.Placeholders
import SessionPlan.Proofs.Text.Pieces
import SessionPlan.Document.Build

/-! Placeholders are filled in one kind after the other. That comes to filling all of them at once
as long as no value gives rise to a placeholder of a later kind, by itself or together with the
text around it. A session name can: then a hook does not get the name that it asks for. -/
namespace SessionPlan
open SessionPlan.Text

namespace Scope

/-- Cuts the text at the placeholders of one kind after the other, and puts the values in between
the pieces at the end. No value is ever looked at, and placeholders without a value stay. -/
def fillPieces : List (String × Option String) → List Char → List Char
  | [], text => text
  | (_, none) :: later, text => fillPieces later text
  | (placeholder, some value) :: later, text =>
    value.toList.intercalate ((pieces placeholder.toList 0 text).map (fillPieces later))

def filledAtOnce (s : Scope) (command : String) : String :=
  String.ofList (fillPieces s.placeholders command.toList)

example : filledAtOnce { tmux := "__SESSION__", session := "dev" } "__TMUX__ __SESSION__" =
    "__SESSION__ dev" := by decide

/-- What `fill` does with the characters of a command. -/
def fillInTurn (placeholders : List (String × Option String)) (text : List Char) : List Char :=
  placeholders.foldl (fun text (placeholder, value) =>
    match value with
    | some v => replaceFrom placeholder.toList v.toList 0 text
    | none => text) text

theorem toList_fill (s : Scope) (command : String) :
    (s.fill command).toList = fillInTurn s.placeholders command.toList := by
  unfold fill fillInTurn
  generalize s.placeholders = placeholders
  induction placeholders generalizing command with
  | nil => rfl
  | cons first later ih =>
    obtain ⟨placeholder, value⟩ := first
    cases value with
    | none => exact ih command
    | some v =>
      rw [List.foldl_cons, List.foldl_cons, ih]
      simp [replace]

/-- No value can have a part in a placeholder that is filled in after it. -/
def Settled (placeholders : List (String × Option String)) : Prop :=
  placeholders.Pairwise fun earlier later =>
    ∀ value ∈ earlier.2, later.2 ≠ none → Inert later.1.toList value.toList

section
variable {placeholders : List (String × Option String)} {value : List Char}

theorem fillInTurn_around (named : ∀ p ∈ placeholders, p.1 ≠ "")
    (inert : ∀ p ∈ placeholders, p.2 ≠ none → Inert p.1.toList value) (before after : List Char) :
    fillInTurn placeholders (before ++ value ++ after) =
      fillInTurn placeholders before ++ value ++ fillInTurn placeholders after := by
  induction placeholders generalizing before after with
  | nil => rfl
  | cons first later ih =>
    obtain ⟨placeholder, filling⟩ := first
    have others := ih (fun p member => named p (List.mem_cons_of_mem _ member))
      fun p member => inert p (List.mem_cons_of_mem _ member)
    cases filling with
    | none => exact others before after
    | some v =>
      have apart := inert _ List.mem_cons_self (Option.some_ne_none v)
      have some_char : placeholder.toList ≠ [] := by
        simpa using named _ List.mem_cons_self
      simp only [fillInTurn, List.foldl_cons] at others ⊢
      rw [replaceFrom_around apart some_char _ _ _ 0 (Nat.zero_le _), others]

theorem fillInTurn_intercalate (named : ∀ p ∈ placeholders, p.1 ≠ "")
    (inert : ∀ p ∈ placeholders, p.2 ≠ none → Inert p.1.toList value) {parts : List (List Char)}
    (ne_nil : parts ≠ []) :
    fillInTurn placeholders (value.intercalate parts) =
      value.intercalate (parts.map (fillInTurn placeholders)) := by
  induction parts with
  | nil => exact absurd rfl ne_nil
  | cons first rest ih =>
    by_cases last : rest = []
    · subst last
      simp
    · have mapped : rest.map (fillInTurn placeholders) ≠ [] := by simpa using last
      rw [List.map_cons, List.intercalate_cons_of_ne_nil last,
        List.intercalate_cons_of_ne_nil mapped, fillInTurn_around named inert, ih last]

theorem fillInTurn_eq_fillPieces (named : ∀ p ∈ placeholders, p.1 ≠ "")
    (settled : Settled placeholders) (text : List Char) :
    fillInTurn placeholders text = fillPieces placeholders text := by
  induction placeholders generalizing text with
  | nil => rfl
  | cons first later ih =>
    obtain ⟨placeholder, filling⟩ := first
    obtain ⟨inert, settled⟩ := List.pairwise_cons.mp settled
    have named_later : ∀ p ∈ later, p.1 ≠ "" := fun p member =>
      named p (List.mem_cons_of_mem _ member)
    have others := ih named_later settled
    cases filling with
    | none => exact others text
    | some v =>
      have first_kind : fillInTurn ((placeholder, some v) :: later) text =
          fillInTurn later (replaceFrom placeholder.toList v.toList 0 text) := rfl
      rw [first_kind, replaceFrom_eq_intercalate,
        fillInTurn_intercalate named_later (fun p member => inert p member v rfl)
          (pieces_ne_nil _ _ _), fillPieces]
      exact congrArg _ (List.map_congr_left fun piece _ => others piece)

end

/-- One kind after the other or all at once: the same, if the values are settled. -/
theorem fill_of_settled {s : Scope} (settled : Settled s.placeholders) (command : String) :
    s.fill command = s.filledAtOnce command := by
  have named : ∀ p ∈ s.placeholders, p.1 ≠ "" := by simp [placeholders]
  apply String.toList_inj.mp
  rw [toList_fill, fillInTurn_eq_fillPieces named settled, filledAtOnce, String.toList_ofList]

/-- The session's placeholder gives way to the name, and then the later kinds are filled in inside
the name. -/
theorem fill_session (s : Scope) : (s.fill "__SESSION__").toList =
    fillInTurn [("__WINDOW__", s.window), ("__PANE__", s.pane)] s.session.toList := by
  have no_tmux : replaceFrom "__TMUX__".toList s.tmux.toList 0 "__SESSION__".toList =
      "__SESSION__".toList := replaceFrom_of_absent (by decide)
  have whole : replaceFrom "__SESSION__".toList s.session.toList 0 "__SESSION__".toList =
      s.session.toList := by
    simp [replaceFrom]
  have in_turn : fillInTurn s.placeholders "__SESSION__".toList =
      fillInTurn [("__WINDOW__", s.window), ("__PANE__", s.pane)]
        (replaceFrom "__SESSION__".toList s.session.toList 0
          (replaceFrom "__TMUX__".toList s.tmux.toList 0 "__SESSION__".toList)) := rfl
  rw [toList_fill, in_turn, no_tmux, whole]

end Scope

namespace Planner

theorem length_target (pl : Planner) (w : Window) :
    pl.session.toList.length < (pl.target w).text.toList.length := by
  simp [target, WindowTarget.text]

theorem length_paneTarget (pl : Planner) (w : Window) (live : Int) :
    pl.session.toList.length < (pl.paneTarget w live).text.toList.length := by
  have window := pl.length_target w
  simp only [paneTarget, PaneTarget.text, String.toList_append, List.length_append]
  omega

/-- Where the placeholder of a window fits into the session's name, that of a pane is no longer
than the pane's target. -/
theorem length_le_fillPane (pl : Planner) (w : Window) (live : Option Int)
    (fits : "__WINDOW__".toList.length ≤ pl.session.toList.length) (text : List Char) :
    text.length ≤ (Scope.fillInTurn
      [("__PANE__", (live.map (pl.paneTarget w)).map PaneTarget.text)] text).length := by
  cases live with
  | none => exact Nat.le_refl _
  | some n =>
    have pane_longer := pl.length_paneTarget w n
    have shorter : "__PANE__".toList.length ≤ "__WINDOW__".toList.length := by decide
    exact length_le_replaceFrom (by decide) (by omega) 0 text

/-- Both targets of a pane begin with the session's name and go on. So a placeholder in the name
that gives way to one of them makes the name longer, and nothing later makes up for it. -/
theorem fill_session_iff (pl : Planner) (w : Window) (live : Option Int) :
    (pl.scope (some w) (live.map (pl.paneTarget w))).fill "__SESSION__" = pl.session ↔
      ¬"__WINDOW__".toList <:+: pl.session.toList ∧
        (live ≠ none → ¬"__PANE__".toList <:+: pl.session.toList) := by
  have window_longer := pl.length_target w
  have in_turn : Scope.fillInTurn [("__WINDOW__", some (pl.target w).text),
        ("__PANE__", (live.map (pl.paneTarget w)).map PaneTarget.text)] pl.session.toList =
      Scope.fillInTurn [("__PANE__", (live.map (pl.paneTarget w)).map PaneTarget.text)]
        (replaceFrom "__WINDOW__".toList (pl.target w).text.toList 0 pl.session.toList) := rfl
  rw [← String.toList_inj, Scope.fill_session]
  change Scope.fillInTurn [("__WINDOW__", some (pl.target w).text),
    ("__PANE__", (live.map (pl.paneTarget w)).map PaneTarget.text)] pl.session.toList =
      pl.session.toList ↔ _
  rw [in_turn]
  constructor
  · intro kept
    have no_window : ¬"__WINDOW__".toList <:+: pl.session.toList := by
      intro found
      have grown := length_lt_replaceFrom (by decide)
        (Nat.lt_of_le_of_lt found.length_le window_longer) found
      have no_shorter := pl.length_le_fillPane w live found.length_le
        (replaceFrom "__WINDOW__".toList (pl.target w).text.toList 0 pl.session.toList)
      rw [kept] at no_shorter
      exact absurd grown (Nat.not_lt.mpr no_shorter)
    refine ⟨no_window, fun defined found => ?_⟩
    obtain ⟨n, rfl⟩ := Option.ne_none_iff_exists'.mp defined
    have longer := Nat.lt_of_le_of_lt found.length_le (pl.length_paneTarget w n)
    have grown := length_lt_replaceFrom (by decide) longer found
    rw [replaceFrom_of_absent no_window] at kept
    exact absurd (congrArg List.length kept) (Nat.ne_of_gt grown)
  · rintro ⟨no_window, no_pane⟩
    rw [replaceFrom_of_absent no_window]
    cases live with
    | none => rfl
    | some n => exact replaceFrom_of_absent (no_pane (Option.some_ne_none n))

end Planner

/-- The placeholders of a command are filled in at once, and what is put in is never filled in
again, if no value can have a part in a placeholder of a later kind. A session name is no such
value in general: a hook of a window or pane gets the name it asks for just if the name itself holds
none of the placeholders that this scope fills in after it. -/
theorem Scope.fill_meaning (s : Scope) (command : String) :
    (Settled s.placeholders → s.fill command = s.filledAtOnce command) ∧
    ∀ (pl : Planner) (w : Window) (live : Option Int),
      s = pl.scope (some w) (live.map (pl.paneTarget w)) →
        (s.fill "__SESSION__" = pl.session ↔
          ¬"__WINDOW__".toList <:+: pl.session.toList ∧
            (live ≠ none → ¬"__PANE__".toList <:+: pl.session.toList)) := by
  refine ⟨fun settled => fill_of_settled settled command, ?_⟩
  rintro pl w live rfl
  exact pl.fill_session_iff w live

/-- A session whose name holds its own placeholder, which is never looked at again. -/
def nestedScope : Scope where
  tmux := "tmux -2"
  session := "a__SESSION__b"
  window := some "a__SESSION__b:1"

theorem settled_nestedScope : Scope.Settled nestedScope.placeholders := by
  have tmux_session : Inert "__SESSION__".toList "tmux -2".toList :=
    inert_of_ends rfl rfl (by decide) (by decide) (by decide)
  have tmux_window : Inert "__WINDOW__".toList "tmux -2".toList :=
    inert_of_ends rfl rfl (by decide) (by decide) (by decide)
  have session_window : Inert "__WINDOW__".toList "a__SESSION__b".toList :=
    inert_of_ends rfl rfl (by decide) (by decide) (by decide)
  have pairs : Scope.Settled nestedScope.placeholders ↔
      (Inert "__SESSION__".toList "tmux -2".toList ∧ Inert "__WINDOW__".toList "tmux -2".toList) ∧
        Inert "__WINDOW__".toList "a__SESSION__b".toList := by
    simp [Scope.Settled, Scope.placeholders, nestedScope]
  exact pairs.mpr ⟨⟨tmux_session, tmux_window⟩, session_window⟩

theorem fill_meaning_nested :
    Scope.Settled nestedScope.placeholders ∧
      nestedScope.fill "__TMUX__SESSION__ __SESSION__" = "tmux -2SESSION__ a__SESSION__b" := by
  refine ⟨settled_nestedScope, ?_⟩
  rw [(Scope.fill_meaning nestedScope _).1 settled_nestedScope]
  decide

/-- A session that bears the name of a placeholder, which a hook of its window asks for. -/
def placeholderDocument : Tree := .mapping [
  (.text "name", .text "__WINDOW__"),
  (.text "windows", .list [.mapping [(.text "on_create", .text "echo __SESSION__")]])]

def placeholderProject : Project where
  sessionName := some "__WINDOW__"
  windows := [{ onCreate := ["echo __SESSION__"] }]

def placeholderPlan : Plan where
  sessionName := "__WINDOW__"
  tmuxArgs := ["tmux"]
  groups := [
    ⟨.create, [.newSession "__WINDOW__" none none, .setBaseIndex "__WINDOW__" 1,
      .renumberWindows "__WINDOW__", .setPaneBaseIndex ⟨"__WINDOW__", 1⟩ 1], some 1, some 1⟩,
    ⟨.onCreate, [.runShell "echo __WINDOW__:1"], some 1, none⟩,
    ⟨.select, [.selectWindow ⟨"__WINDOW__", 1⟩, .selectPane ⟨⟨"__WINDOW__", 1⟩, 1⟩],
      some 1, some 1⟩,
    ⟨.attach, [.attach "__WINDOW__"], none, none⟩]
  occasions := Occasion.all.map fun occasion => (occasion, [])

/-- The name is accepted, and the hook gets the window's target instead of it. -/
theorem fill_rescans :
    (Document.build "/home/ann" {} placeholderDocument).result = .ok placeholderProject ∧
      placeholderProject.plan none = .ok placeholderPlan ∧
      ((placeholderProject.planner "__WINDOW__" ["tmux"]).scope (some {}) none).filledAtOnce
        "echo __SESSION__" = "echo __WINDOW__" :=
  ⟨eq_ok_of_toOption (by decide +kernel), eq_ok_of_toOption (by decide +kernel), by decide⟩

end SessionPlan
