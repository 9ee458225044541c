import SessionPlan.Proofs.Lists
import SessionPlan.Proofs.Outcome
import SessionPlan.Proofs.Text.Lines
import SessionPlan.Snapshot.Listing

/-! Listings that are printed of a session are read as that session, however the lines of its
windows are mixed with each other and with lines that tell of no pane of it. -/
namespace SessionPlan.Snapshot
open SessionPlan.Text

/-! ### What is printed -/

/-- What the multiplexer puts in for a field. What a pane lacks is printed as an empty text. -/
def fieldText (session : String) (w : LiveWindow) (p : LivePane) : String → String
  | "session_name" => session
  | "window_index" => ofInt w.index
  | "window_name" => w.name.getD ""
  | "window_layout" => w.layout.getD ""
  | "pane_index" => ofInt p.index
  | "pane_current_path" => p.workingDir.getD ""
  | "pane_current_command" => p.command.getD ""
  | _ => ""

/-- The line of a pane: `lineFormat` with every field filled in. -/
def paneLine (session : String) (w : LiveWindow) (p : LivePane) : String :=
  join "\t" (fieldNames.map (fieldText session w p))

/-- One line of a listing: of a pane of the session, or any other. -/
inductive Shown where
  | pane (w : LiveWindow) (p : LivePane)
  | other (line : String)

namespace Shown

def line (session : String) : Shown → String
  | .pane w p => paneLine session w p
  | .other line => line

def pane? : Shown → Option (LiveWindow × LivePane)
  | .pane w p => some (w, p)
  | .other _ => none

end Shown

/-- Lines with line feeds between them. The last one may go without. -/
def printed (ended : Bool) (lines : List String) : String :=
  join "\n" lines ++ if ended then "\n" else ""

/-- The panes of a listing in the order of their lines, each with its window. -/
def panesShown (listing : List Shown) : List (LiveWindow × LivePane) :=
  listing.filterMap Shown.pane?

/-- A line that tells of no pane of the session: a blank one, or one of another session. -/
def IsForeign (session line : String) : Prop :=
  BreakFree line ∧ (isBlankText line = true ∨
    fieldNames.length ≤ (split line '\t').length ∧ (split line '\t').head? ≠ some session)

instance (session line : String) : Decidable (IsForeign session line) :=
  inferInstanceAs (Decidable (_ ∧ _))

/-- The listing shows the session: the first lines of the windows come in their order, and so do the
lines of the panes of each window. -/
structure Shows (listing : List Shown) (s : Snapshot) : Prop where
  windows : ((panesShown listing).map Prod.fst).eraseDups = s.windows
  panes : ∀ w ∈ s.windows, ((panesShown listing).filter (·.1 = w)).map Prod.snd = w.panes
  others : ∀ line, .other line ∈ listing → IsForeign s.sessionName line

/-! ### What fits into a listing -/

/-- A text that says something and keeps to one line, unless it is absent. -/
def IsSaid (text : Option String) : Prop := ∀ t ∈ text, t ≠ "" ∧ BreakFree t

/-- A text that fits between two tabs. -/
def IsField (text : Option String) : Prop := IsSaid text ∧ ∀ t ∈ text, '\t' ∉ t.toList

instance : DecidablePred IsSaid := fun text =>
  inferInstanceAs (Decidable (∀ t ∈ text, t ≠ "" ∧ BreakFree t))

instance : DecidablePred IsField := fun text =>
  inferInstanceAs (Decidable (IsSaid text ∧ ∀ t ∈ text, '\t' ∉ t.toList))

/-- A pane whose line can be printed. Only the name of its window may hold tabs. -/
structure IsPrintable (w : LiveWindow) (p : LivePane) : Prop where
  name : IsSaid w.name
  layout : IsField w.layout
  path : IsField p.workingDir
  command : IsField p.command

/-- The indices of a pane and its window have no more digits than are read. -/
structure IsNumbered (w : LiveWindow) (p : LivePane) : Prop where
  window : ¬IsOverlong w.index
  pane : ¬IsOverlong p.index

/-- A session that can be told apart from its lines: it has windows, and no two of them have the
same index. -/
structure IsListable (s : Snapshot) : Prop where
  windows_ne_nil : s.windows ≠ []
  distinct : (s.windows.map LiveWindow.index).Nodup
  name : IsField (some s.sessionName)
  panes : ∀ w ∈ s.windows, ∀ p ∈ w.panes, IsPrintable w p

/-! ### One line -/

theorem said_getD {text : Option String} (h : IsSaid text) : said (text.getD "") = text := by
  cases text with
  | none => rfl
  | some t =>
    have nonempty : t ≠ "" := (h t rfl).1
    simp [said, nonempty]

theorem IsField.not_mem {text : Option String} (h : IsField text) :
    '\t' ∉ (text.getD "").toList := by
  cases text with
  | none => simp
  | some t => exact h.2 t rfl

theorem not_mem_ofInt {c : Char} (blank : isBlank c = true) (n : Int) : c ∉ (ofInt n).toList := by
  intro member
  rw [isBlank_of_mem_ofInt member] at blank
  cases blank

theorem paneLine_eq (session : String) (w : LiveWindow) (p : LivePane) :
    paneLine session w p = session ++ "\t" ++ (ofInt w.index ++ "\t" ++ (w.name.getD "" ++ "\t" ++
      (w.layout.getD "" ++ "\t" ++ (ofInt p.index ++ "\t" ++ (p.workingDir.getD "" ++ "\t" ++
        p.command.getD ""))))) := by
  apply String.toList_injective
  simp [paneLine, join, fieldNames, fieldText]

theorem split_tab {field : String} (plain : '\t' ∉ field.toList) (rest : String) :
    split (field ++ "\t" ++ rest) '\t' = field :: split rest '\t' := by
  have cut := split_append field rest '\t'
  rwa [split_of_absent plain, List.singleton_append] at cut

theorem split_paneLine {session : String} {w : LiveWindow} {p : LivePane}
    (named : IsField (some session)) (fits : IsPrintable w p) :
    split (paneLine session w p) '\t' = session :: ofInt w.index ::
      (split (w.name.getD "") '\t' ++
        [w.layout.getD "", ofInt p.index, p.workingDir.getD "", p.command.getD ""]) := by
  have tail : split (w.layout.getD "" ++ "\t" ++ (ofInt p.index ++ "\t" ++
      (p.workingDir.getD "" ++ "\t" ++ p.command.getD ""))) '\t' =
      [w.layout.getD "", ofInt p.index, p.workingDir.getD "", p.command.getD ""] := by
    rw [split_tab fits.layout.not_mem, split_tab (not_mem_ofInt (by decide) _),
      split_tab fits.path.not_mem, split_of_absent fits.command.not_mem]
  -- the name may hold tabs, so it is cut as well
  have middle := split_append (w.name.getD "") (w.layout.getD "" ++ "\t" ++ (ofInt p.index ++
    "\t" ++ (p.workingDir.getD "" ++ "\t" ++ p.command.getD ""))) '\t'
  rw [tail] at middle
  rw [paneLine_eq, split_tab (named.2 session rfl), split_tab (not_mem_ofInt (by decide) _)]
  exact congrArg (session :: ofInt w.index :: ·) middle

theorem Line.ofFields?_append (session window : String) {names : List String}
    (nonempty : names ≠ []) (layout pane path command : String) :
    Line.ofFields? (session :: window :: (names ++ [layout, pane, path, command])) =
      some ⟨session, window, join "\t" names, layout, pane, path, command⟩ := by
  obtain ⟨last, more, reversed⟩ := List.exists_cons_of_ne_nil (List.reverse_ne_nil_iff.mpr nonempty)
  have back : (last :: more).reverse = names := by rw [← reversed, List.reverse_reverse]
  have order : (names ++ [layout, pane, path, command]).reverse =
      command :: path :: pane :: layout :: last :: more := by simp [reversed]
  simp only [Line.ofFields?, order, back]

theorem readLine_paneLine {session : String} {w : LiveWindow} {p : LivePane}
    (named : IsField (some session)) (fits : IsPrintable w p) (number : Nat) :
    readLine number (paneLine session w p) = .ok ⟨session, ofInt w.index, w.name.getD "",
      w.layout.getD "", ofInt p.index, p.workingDir.getD "", p.command.getD ""⟩ := by
  have fields := Line.ofFields?_append session (ofInt w.index)
    (split_ne_nil (w.name.getD "") '\t') (w.layout.getD "") (ofInt p.index)
    (p.workingDir.getD "") (p.command.getD "")
  have name : join "\t" (split (w.name.getD "") '\t') = w.name.getD "" := join_split _ _
  rw [name, ← split_paneLine named fits] at fields
  simp only [readLine, fields]

/-- Read back, a line tells of its pane and of what its window is called and how it is laid out. -/
theorem windowOfLine_paneLine {w : LiveWindow} {p : LivePane} (fits : IsPrintable w p)
    (numbered : IsNumbered w p) (number : Nat) (session : String) :
    windowOfLine number ⟨session, ofInt w.index, w.name.getD "", w.layout.getD "", ofInt p.index,
      p.workingDir.getD "", p.command.getD ""⟩ = .ok { w with panes := [p] } := by
  simp only [windowOfLine, readIndex, integer?_ofInt (not_isOverlong_iff.mp numbered.window),
    integer?_ofInt (not_isOverlong_iff.mp numbered.pane),
    ok_bind, said_getD fits.name, said_getD fits.layout.1, said_getD fits.path.1,
    said_getD fits.command.1]
  rfl

/-- Every line has the index of a window, so none is blank. -/
theorem isBlankText_paneLine (session : String) (w : LiveWindow) (p : LivePane) :
    isBlankText (paneLine session w p) = false := by
  obtain ⟨c, rest, index⟩ := List.exists_cons_of_ne_nil (ofInt_toList_ne_nil w.index)
  have solid : isBlank c = false := isBlank_of_mem_ofInt (index ▸ List.mem_cons_self)
  have member : c ∈ (paneLine session w p).toList := by
    simp [paneLine_eq, String.toList_append, index]
  by_contra blank
  have all := List.all_eq_true.mp (Bool.not_eq_false _ ▸ blank) c member
  rw [solid] at all
  cases all

theorem IsSaid.breakFree {text : Option String} (h : IsSaid text) : BreakFree (text.getD "") := by
  cases text with
  | none => simp [BreakFree]
  | some t => exact (h t rfl).2

theorem breakFree_paneLine {session : String} {w : LiveWindow} {p : LivePane}
    (named : IsField (some session)) (fits : IsPrintable w p) :
    BreakFree (paneLine session w p) := by
  have tab : BreakFree "\t" := by decide
  have own : BreakFree session := named.1.breakFree
  simp only [paneLine_eq, breakFree_append]
  exact ⟨⟨own, tab⟩, ⟨breakFree_ofInt _, tab⟩, ⟨fits.name.breakFree, tab⟩,
    ⟨fits.layout.1.breakFree, tab⟩, ⟨breakFree_ofInt _, tab⟩, ⟨fits.path.1.breakFree, tab⟩,
    fits.command.1.breakFree⟩

/-- A line with enough fields can be taken apart, and its first field is its session. -/
theorem Line.ofFields?_of_le {fields : List String} (enough : fieldNames.length ≤ fields.length) :
    ∃ line, Line.ofFields? fields = some line ∧ fields.head? = some line.session := by
  match fields, enough with
  | session :: window :: rest, enough =>
    have long : 5 ≤ rest.reverse.length := by simpa [fieldNames] using enough
    match order : rest.reverse, long with
    | command :: path :: pane :: layout :: last :: more, _ =>
      exact ⟨⟨session, window, join "\t" (last :: more).reverse, layout, pane, path, command⟩,
        by simp only [Line.ofFields?, order], rfl⟩

/-! ### All lines -/

/-- The window of a pane, with that pane only. -/
def sliver (shown : LiveWindow × LivePane) : LiveWindow := { shown.1 with panes := [shown.2] }

section
variable {session : String} (windows : List LiveWindow) (number : Nat)

theorem windowsFrom_pane {w : LiveWindow} {p : LivePane} (named : IsField (some session))
    (fits : IsPrintable w p) (numbered : IsNumbered w p) (rest : List String) :
    windowsFrom session windows number (paneLine session w p :: rest) =
      windowsFrom session (addWindow (sliver (w, p)) windows) (number + 1) rest := by
  rw [windowsFrom, isBlankText_paneLine, readLine_paneLine named fits, ok_bind]
  simp [windowOfLine_paneLine fits numbered, ok_bind, sliver]

/-- An index with too many digits is not read as one. -/
theorem windowsFrom_overlong {w : LiveWindow} {p : LivePane} (named : IsField (some session))
    (fits : IsPrintable w p) (long : IsOverlong w.index) (rest : List String) :
    windowsFrom session windows number (paneLine session w p :: rest) =
      .error (.problem ⟨.listingIndex "window index" (ofInt w.index), linePath number⟩) := by
  have unread : windowOfLine number ⟨session, ofInt w.index, w.name.getD "", w.layout.getD "",
      ofInt p.index, p.workingDir.getD "", p.command.getD ""⟩ =
        .error (.problem ⟨.listingIndex "window index" (ofInt w.index), linePath number⟩) := by
    rw [windowOfLine, readIndex, integer?_ofInt_eq_none (isOverlong_iff.mp long)]
    rfl
  rw [windowsFrom, isBlankText_paneLine, readLine_paneLine named fits, ok_bind]
  simp only [Bool.false_eq_true, if_false, bne_self_eq_false, unread]
  rfl

theorem windowsFrom_foreign {line : String} (foreign : IsForeign session line)
    (rest : List String) :
    windowsFrom session windows number (line :: rest) =
      windowsFrom session windows (number + 1) rest := by
  rw [windowsFrom]
  rcases foreign.2 with blank | ⟨enough, another⟩
  · rw [if_pos blank]
  · by_cases blank : isBlankText line = true
    · rw [if_pos blank]
    · obtain ⟨read, taken, first⟩ := Line.ofFields?_of_le enough
      have other : read.session ≠ session := fun same => another (same ▸ first)
      rw [if_neg blank, readLine, taken, ok_bind]
      simp [other]

/-- Two texts that go on alike are alike. -/
theorem windowsFrom_cons_congr {rest rest' : List String}
    (alike : ∀ windows number,
      windowsFrom session windows number rest = windowsFrom session windows number rest')
    (line : String) :
    windowsFrom session windows number (line :: rest) =
      windowsFrom session windows number (line :: rest') := by
  simp only [windowsFrom, alike]

/-- Printed lines are found again; an empty last line without an end is none, but tells of nothing
either. -/
theorem windowsFrom_printed (ended : Bool) {text : List String} (whole : ∀ l ∈ text, BreakFree l) :
    windowsFrom session windows number (lines (printed ended text)) =
      windowsFrom session windows number text := by
  induction text generalizing windows number with
  | nil => cases ended <;> rfl
  | cons line rest ih =>
    have free : BreakFree line := whole line List.mem_cons_self
    have later := fun windows number =>
      ih windows number fun l member => whole l (List.mem_cons_of_mem _ member)
    cases rest with
    | nil =>
      cases ended with
      | true =>
        have cut := lines_append free ""
        rw [String.append_empty] at cut
        rw [printed, join, String.intercalate_singleton, if_pos rfl, cut]
        rfl
      | false =>
        rw [printed, join, String.intercalate_singleton, if_neg (by decide), String.append_empty,
          lines_of_breakFree free]
        by_cases empty : line = ""
        · subst empty
          rfl
        · simp [empty]
    | cons next further =>
      have cut : printed ended (line :: next :: further) =
          line ++ "\n" ++ printed ended (next :: further) := by
        simp [printed, join, String.append_assoc]
      rw [cut, lines_append free]
      exact windowsFrom_cons_congr windows number later line

/-- A listing is read pane by pane. -/
theorem windowsFrom_shown {listing : List Shown} (named : IsField (some session))
    (fit : ∀ shown ∈ panesShown listing, IsPrintable shown.1 shown.2)
    (numbered : ∀ shown ∈ panesShown listing, IsNumbered shown.1 shown.2)
    (others : ∀ line, .other line ∈ listing → IsForeign session line) :
    windowsFrom session windows number (listing.map (Shown.line session)) =
      .ok ((panesShown listing).foldl (fun windows shown => addWindow (sliver shown) windows)
        windows) := by
  induction listing generalizing windows number with
  | nil => rfl
  | cons first rest ih =>
    have foreign : ∀ line, .other line ∈ rest → IsForeign session line := fun line member =>
      others line (List.mem_cons_of_mem _ member)
    cases first with
    | pane w p =>
      obtain ⟨fits, later⟩ := List.forall_mem_cons.mp fit
      obtain ⟨counted, further⟩ := List.forall_mem_cons.mp numbered
      rw [List.map_cons, Shown.line, windowsFrom_pane windows number named fits counted,
        ih _ _ later further foreign]
      rfl
    | other line =>
      rw [List.map_cons, Shown.line,
        windowsFrom_foreign windows number (others line List.mem_cons_self), ih _ _ fit numbered foreign]
      rfl

end

/-! ### Windows put together -/

/-- A window as it is after some panes have been shown: it has those of them that are its own. -/
def gathered (shown : List (LiveWindow × LivePane)) (w : LiveWindow) : LiveWindow :=
  { w with panes := (shown.filter (·.1 = w)).map Prod.snd }

theorem gathered_other {w v : LiveWindow} (other : w ≠ v) (shown : List (LiveWindow × LivePane))
    (p : LivePane) : gathered (shown ++ [(w, p)]) v = gathered shown v := by
  simp [gathered, other]

theorem gathered_first {w : LiveWindow} {shown : List (LiveWindow × LivePane)}
    (absent : w ∉ shown.map Prod.fst) (p : LivePane) :
    gathered (shown ++ [(w, p)]) w = sliver (w, p) := by
  have none_before : shown.filter (·.1 = w) = [] := by
    rw [List.filter_eq_nil_iff]
    intro one member
    simp only [decide_eq_true_eq]
    rintro rfl
    exact absent (List.mem_map_of_mem member)
  simp [gathered, sliver, none_before]

theorem addWindow_absent {w : LiveWindow} {windows : List LiveWindow}
    (absent : w.index ∉ windows.map LiveWindow.index) : addWindow w windows = windows ++ [w] := by
  induction windows with
  | nil => rfl
  | cons first rest ih =>
    rw [List.map_cons, List.mem_cons, not_or] at absent
    rw [addWindow, if_neg (Ne.symm absent.1), ih absent.2, List.cons_append]

/-- A pane goes to the window of its index, and to no other if indexes differ. -/
theorem addWindow_gathered {shown : List (LiveWindow × LivePane)} {w : LiveWindow} {p : LivePane}
    {windows : List LiveWindow} (known : w ∈ windows)
    (distinct : (windows.map LiveWindow.index).Nodup) :
    addWindow (sliver (w, p)) (windows.map (gathered shown)) =
      windows.map (gathered (shown ++ [(w, p)])) := by
  induction windows with
  | nil => cases known
  | cons first rest ih =>
    rw [List.map_cons, List.nodup_cons] at distinct
    rw [List.map_cons, List.map_cons, addWindow]
    by_cases here : first = w
    · subst here
      have elsewhere : rest.map (gathered (shown ++ [(first, p)])) = rest.map (gathered shown) := by
        apply List.map_congr_left
        intro v member
        apply gathered_other
        rintro rfl
        exact distinct.1 (List.mem_map_of_mem member)
      rw [elsewhere]
      simp [gathered, sliver]
    · have later : w ∈ rest := (List.mem_cons.mp known).resolve_left (Ne.symm here)
      have apart : first.index ≠ w.index := fun same =>
        distinct.1 (same ▸ List.mem_map_of_mem later)
      rw [if_neg (by exact apart), ih later distinct.2, gathered_other (Ne.symm here)]

/-- What comes of panes in the order in which they are shown: each window that one of them is of,
with its own panes. -/
theorem foldl_addWindow {shown : List (LiveWindow × LivePane)}
    (distinct : ((shown.map Prod.fst).eraseDups.map LiveWindow.index).Nodup) :
    shown.foldl (fun windows shown => addWindow (sliver shown) windows) [] =
      (shown.map Prod.fst).eraseDups.map (gathered shown) := by
  induction shown using List.reverseRecOn with
  | nil => rfl
  | append_singleton front last ih =>
    obtain ⟨w, p⟩ := last
    rw [List.map_append, List.map_singleton] at distinct ⊢
    by_cases known : w ∈ front.map Prod.fst
    · rw [eraseDups_concat_of_mem known] at distinct ⊢
      rw [List.foldl_append, ih distinct]
      exact addWindow_gathered (List.mem_eraseDups.mpr known) distinct
    · rw [eraseDups_concat_of_not_mem known] at distinct ⊢
      rw [List.map_append, List.nodup_append] at distinct
      obtain ⟨before, -, apart⟩ := distinct
      have fresh : (sliver (w, p)).index ∉
          ((front.map Prod.fst).eraseDups.map (gathered front)).map LiveWindow.index := by
        rw [List.map_map]
        intro member
        exact apart w.index member w.index (by simp) rfl
      have others : (front.map Prod.fst).eraseDups.map (gathered (front ++ [(w, p)])) =
          (front.map Prod.fst).eraseDups.map (gathered front) := by
        apply List.map_congr_left
        intro v member
        apply gathered_other
        rintro rfl
        exact known (List.mem_eraseDups.mp member)
      rw [List.foldl_append, ih before, List.map_append, others, List.map_singleton,
        gathered_first known p]
      exact addWindow_absent fresh

/-- What is printed of a session is read as that session, if its indices are not too long. -/
theorem ofListing_printed {s : Snapshot} {listing : List Shown} (listable : s.IsListable)
    (numbered : ∀ w ∈ s.windows, ∀ p ∈ w.panes, IsNumbered w p) (shows : Shows listing s)
    (ended : Bool) :
    ofListing (printed ended (listing.map (Shown.line s.sessionName))) s.sessionName = .ok s := by
  have own : ∀ shown ∈ panesShown listing, shown.1 ∈ s.windows ∧ shown.2 ∈ shown.1.panes := by
    rintro ⟨w, p⟩ member
    have known : w ∈ s.windows := by
      rw [← shows.windows, List.mem_eraseDups]
      exact List.mem_map_of_mem member
    refine ⟨known, ?_⟩
    rw [← shows.panes w known]
    exact List.mem_map_of_mem (List.mem_filter.mpr ⟨member, by simp⟩)
  have fit : ∀ shown ∈ panesShown listing, IsPrintable shown.1 shown.2 := fun shown member =>
    listable.panes shown.1 (own shown member).1 shown.2 (own shown member).2
  have counted : ∀ shown ∈ panesShown listing, IsNumbered shown.1 shown.2 := fun shown member =>
    numbered shown.1 (own shown member).1 shown.2 (own shown member).2
  have whole : ∀ line ∈ listing.map (Shown.line s.sessionName), BreakFree line := by
    intro line member
    obtain ⟨shown, known, rfl⟩ := List.mem_map.mp member
    cases shown with
    | pane w p =>
      exact breakFree_paneLine listable.name
        (fit (w, p) (List.mem_filterMap.mpr ⟨_, known, rfl⟩))
    | other line => exact (shows.others line known).1
  have together : (panesShown listing).foldl
      (fun windows shown => addWindow (sliver shown) windows) [] = s.windows := by
    rw [foldl_addWindow (shows.windows ▸ listable.distinct), shows.windows]
    conv_rhs => rw [← List.map_id s.windows]
    apply List.map_congr_left
    intro w member
    rw [gathered, shows.panes w member]
    rfl
  obtain ⟨first, rest, some_window⟩ := List.exists_cons_of_ne_nil listable.windows_ne_nil
  rw [ofListing, windowsFrom_printed [] 1 ended whole,
    windowsFrom_shown [] 1 listable.name fit counted shows.others, together, ok_bind, some_window,
    pure_eq_ok, ← some_window]

/-- A window whose name holds a tab. -/
def editorWindow : LiveWindow where
  index := 1
  name := some "edit\tlog"
  layout := some "tiled"
  panes := [{ index := 0, workingDir := some "/srv", command := some "vim" }, { index := 1 }]

def bareWindow : LiveWindow where
  index := -3
  panes := [{ index := 4, command := some "top" }]

def mixedSession : Snapshot := { sessionName := "work", windows := [editorWindow, bareWindow] }

/-- The panes of the first window with a blank line, the other window and another session between
them. -/
def mixedListing : List Shown :=
  [.pane editorWindow { index := 0, workingDir := some "/srv", command := some "vim" },
   .other " \t ",
   .pane bareWindow { index := 4, command := some "top" },
   .other "play\t1\tmain\t\t0\t/home\tbash",
   .pane editorWindow { index := 1 }]

theorem ofListing_printed_mixed :
    mixedSession.IsListable ∧
      (∀ w ∈ mixedSession.windows, ∀ p ∈ w.panes, IsNumbered w p) ∧
      Shows mixedListing mixedSession ∧
      ofListing (printed true (mixedListing.map (Shown.line "work"))) "work" =
        .ok mixedSession := by
  have printable : ∀ w ∈ mixedSession.windows, ∀ p ∈ w.panes, IsPrintable w p := by
    have name : ∀ w ∈ mixedSession.windows, IsSaid w.name := by decide +kernel
    have layout : ∀ w ∈ mixedSession.windows, IsField w.layout := by decide +kernel
    have path : ∀ w ∈ mixedSession.windows, ∀ p ∈ w.panes, IsField p.workingDir := by
      decide +kernel
    have command : ∀ w ∈ mixedSession.windows, ∀ p ∈ w.panes, IsField p.command := by
      decide +kernel
    exact fun w known p own => ⟨name w known, layout w known, path w known p own,
      command w known p own⟩
  have listable : mixedSession.IsListable :=
    ⟨by decide, by decide, by decide +kernel, printable⟩
  have shows : Shows mixedListing mixedSession := by
    refine ⟨by decide +kernel, by decide +kernel, ?_⟩
    intro line member
    have foreign : ∀ shown ∈ mixedListing, shown.pane?.isNone →
        IsForeign "work" (shown.line "work") := by decide +kernel
    exact foreign (.other line) member rfl
  have numbered : ∀ w ∈ mixedSession.windows, ∀ p ∈ w.panes, IsNumbered w p := by
    have indices : ∀ w ∈ mixedSession.windows, ∀ p ∈ w.panes,
        isWritable w.index = true ∧ isWritable p.index = true := by decide +kernel
    exact fun w known p own => ⟨not_isOverlong_iff.mpr (indices w known p own).1,
      not_isOverlong_iff.mpr (indices w known p own).2⟩
  exact ⟨listable, numbered, shows, ofListing_printed listable numbered shows true⟩

/-- The one window has an index with too many digits. -/
def overlongWindow : LiveWindow where
  index := firstOverlong
  panes := [{ index := 0 }]

def overlongSession : Snapshot := { sessionName := "work", windows := [overlongWindow] }

/-- It fits into a listing all the same, and the listing is refused. -/
theorem ofListing_overlong :
    overlongSession.IsListable ∧ Shows [.pane overlongWindow { index := 0 }] overlongSession ∧
      ofListing (printed true [paneLine "work" overlongWindow { index := 0 }]) "work" =
        .error (.problem ⟨.listingIndex "window index" (ofInt firstOverlong), "line 1"⟩) := by
  have named : IsField (some "work") := by decide +kernel
  have fits : IsPrintable overlongWindow { index := 0 } :=
    ⟨nofun, ⟨nofun, nofun⟩, ⟨nofun, nofun⟩, ⟨nofun, nofun⟩⟩
  have listable : overlongSession.IsListable := by
    refine ⟨by simp [overlongSession], by simp [overlongSession], named, fun w known p own => ?_⟩
    obtain rfl : w = overlongWindow := List.mem_singleton.mp known
    obtain rfl : p = { index := 0 } := List.mem_singleton.mp own
    exact fits
  have shows : Shows [.pane overlongWindow { index := 0 }] overlongSession := by
    refine ⟨rfl, fun w known => ?_, by simp⟩
    obtain rfl : w = overlongWindow := List.mem_singleton.mp known
    simp [panesShown, Shown.pane?, overlongWindow]
  have whole : ∀ line ∈ [paneLine "work" overlongWindow { index := 0 }], BreakFree line := by
    intro line member
    obtain rfl := List.mem_singleton.mp member
    exact breakFree_paneLine named fits
  refine ⟨listable, shows, ?_⟩
  rw [ofListing, windowsFrom_printed [] 1 true whole,
    windowsFrom_overlong [] 1 named fits isOverlong_firstOverlong]
  rfl

end SessionPlan.Snapshot
