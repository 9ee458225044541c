import SessionPlan.Proofs.Text.Lines
import SessionPlan.Proofs.Text.Strip
import SessionPlan.Settings.ErrorLine
import SessionPlan.Toml.Reader

/-! Two ways to count the lines of a settings file. A TOML document counts its line feeds; the line
that is shown for an error is looked up among lines that end in other ways as well. Each other end
cuts a line into pieces, and from there on the second count is ahead of the first. -/
namespace SessionPlan.Settings
open SessionPlan.Text

/-- The lines of a settings text, counted by its line feeds. -/
def feedLines (text : String) : List String :=
  split (String.ofList (Toml.plainBreaks text.toList)) '\n'

/-- The pieces that its other line ends cut a line into. -/
def endPieces (line : String) : List String := (line.toList.splitOnP breaksLine).map String.ofList

/-- What stands in a line before its first other end. -/
def firstPiece (line : String) : String :=
  String.ofList (line.toList.takeWhile (!breaksLine ·))

theorem endPieces_of_breakFree {line : String} (unbroken : BreakFree line) :
    endPieces line = [line] := by
  rw [endPieces, List.splitOnP_eq_singleton unbroken, List.map_singleton, String.ofList_toList]

/-- A line is its first piece, or this piece is followed by others. -/
theorem endPieces_eq_cons (line : String) : ∃ others, endPieces line = firstPiece line :: others ∧
    (others = [] ↔ BreakFree line) := by
  suffices h : ∀ s : List Char, ∃ others,
      s.splitOnP breaksLine = s.takeWhile (!breaksLine ·) :: others ∧
        (others = [] ↔ ∀ c ∈ s, breaksLine c = false) by
    obtain ⟨others, cut, whole⟩ := h line.toList
    exact ⟨others.map String.ofList, by rw [endPieces, cut]; rfl,
      List.map_eq_nil_iff.trans whole⟩
  intro s
  induction s with
  | nil => exact ⟨[], by simp⟩
  | cons c rest ih =>
    obtain ⟨others, cut, whole⟩ := ih
    rw [List.splitOnP_cons_eq_if_modifyHead, cut]
    cases ends : breaksLine c with
    | true => exact ⟨rest.takeWhile (!breaksLine ·) :: others, by simp [ends], by simp [ends]⟩
    | false => exact ⟨others, by simp [ends], by simp [ends, whole]⟩

/-- Cutting at the line feeds first makes no difference to the pieces. -/
theorem flatMap_splitOnP_splitList {ends : Char → Bool} {separator : Char}
    (isEnd : ends separator = true) (s : List Char) :
    (splitList separator s).flatMap (·.splitOnP ends) = s.splitOnP ends := by
  induction s with
  | nil => simp [splitList]
  | cons c rest ih =>
    obtain ⟨piece, pieces, cut⟩ := List.exists_cons_of_ne_nil (splitList_ne_nil separator rest)
    rw [cut, List.flatMap_cons] at ih
    rw [splitList, cut, List.splitOnP_cons_eq_if_modifyHead, ← ih]
    by_cases same : c = separator
    · simp [same, isEnd]
    · obtain ⟨first, others, split⟩ :=
        List.exists_cons_of_ne_nil (List.splitOnP_ne_nil ends piece)
      simp only [same, if_false, List.flatMap_cons, List.splitOnP_cons_eq_if_modifyHead, split]
      cases ends c <;> simp

/-- Universal line ends are the ends that a document has, but that a last piece without characters
is no line. -/
theorem splitOnP_plainBreaks (line s : List Char) : ∃ last,
    ((Toml.plainBreaks s).splitOnP breaksLine).modifyHead (line.reverse ++ ·) =
      linesFrom line (unifyNewlines s) ++ last ∧ (last = [] ∨ last = [[]]) := by
  have feed : breaksLine '\n' = true := by decide
  have whole (pieces : List (List Char)) : pieces.modifyHead (([] : List Char).reverse ++ ·) =
      pieces := by cases pieces <;> rfl
  fun_induction unifyNewlines s generalizing line with
  | case1 =>
    cases line with
    | nil => exact ⟨[[]], by simp [Toml.plainBreaks, linesFrom], .inr rfl⟩
    | cons c line => exact ⟨[], by simp [Toml.plainBreaks, linesFrom], .inl rfl⟩
  | case2 rest ih =>
    obtain ⟨last, same, empty⟩ := ih []
    rw [whole] at same
    refine ⟨last, ?_, empty⟩
    rw [Toml.plainBreaks, List.splitOnP_cons_eq_if_modifyHead, if_pos feed, same,
      linesFrom_cons_break feed (by decide)]
    simp
  | case3 c rest single ih =>
    have read : Toml.plainBreaks (c :: rest) = c :: Toml.plainBreaks rest := by
      rw [Toml.plainBreaks]
      exact single
    rw [read, List.splitOnP_cons_eq_if_modifyHead]
    cases ends : breaksLine c with
    | true =>
      obtain ⟨last, same, empty⟩ := ih []
      rw [whole] at same
      refine ⟨last, ?_, empty⟩
      have step : linesFrom line ((if c = '\r' then '\n' else c) :: unifyNewlines rest) =
          line.reverse :: linesFrom [] (unifyNewlines rest) := by
        by_cases carriage : c = '\r'
        · rw [if_pos carriage, linesFrom_cons_break feed (by decide)]
        · rw [if_neg carriage, linesFrom_cons_break ends carriage]
      rw [step, same]
      simp
    | false =>
      have carriage : c ≠ '\r' := by
        rintro rfl
        exact absurd ends (by decide)
      obtain ⟨last, same, empty⟩ := ih (c :: line)
      refine ⟨last, ?_, empty⟩
      rw [if_neg carriage, linesFrom_cons ends, ← same, if_neg (by decide), List.modifyHead_modifyHead]
      congr 1
      funext piece
      simp

theorem flatMap_endPieces (text : String) : ∃ last, (feedLines text).flatMap endPieces =
    lines (Surroundings.plainText text) ++ last ∧ (last = [] ∨ last = [""]) := by
  obtain ⟨last, same, empty⟩ := splitOnP_plainBreaks [] text.toList
  have feed : breaksLine '\n' = true := by decide
  have cut : (feedLines text).flatMap endPieces =
      ((Toml.plainBreaks text.toList).splitOnP breaksLine).map String.ofList := by
    rw [← flatMap_splitOnP_splitList feed, List.map_flatMap, feedLines, split,
      String.toList_ofList, List.flatMap_map]
    exact List.flatMap_congr fun piece _ => by rw [endPieces, String.toList_ofList]
  have whole : (Toml.plainBreaks text.toList).splitOnP breaksLine =
      linesFrom [] (unifyNewlines text.toList) ++ last := by
    rw [← same]
    cases (Toml.plainBreaks text.toList).splitOnP breaksLine <;> rfl
  refine ⟨last.map String.ofList, ?_, ?_⟩
  · rw [cut, whole, List.map_append, lines, Surroundings.plainText, String.toList_ofList]
  · rcases empty with rfl | rfl
    · exact .inl rfl
    · exact .inr rfl

section
variable {text line : String} {earlier later : List String}

/-- After lines without other ends the line is found, up to its own first other end. -/
theorem lineOf?_of_breakFree (counted : feedLines text = earlier ++ line :: later)
    (unbroken : ∀ l ∈ earlier, BreakFree l) :
    (lineOf? text (earlier.length + 1)).getD "" = stripEnd (firstPiece line) := by
  obtain ⟨last, shown, empty⟩ := flatMap_endPieces text
  obtain ⟨others, cut, -⟩ := endPieces_eq_cons line
  have before : earlier.flatMap endPieces = earlier := by
    rw [List.flatMap_congr fun l member => endPieces_of_breakFree (unbroken l member)]
    exact List.flatMap_singleton' earlier
  have here : (lines (Surroundings.plainText text) ++ last)[earlier.length]? =
      some (firstPiece line) := by
    rw [← shown, counted, List.flatMap_append, List.flatMap_cons, cut, before]
    simp
  rw [lineOf?, Nat.add_sub_cancel]
  by_cases inside : earlier.length < (lines (Surroundings.plainText text)).length
  · rw [List.getElem?_append_left inside] at here
    rw [here]
    rfl
  · have outside := Nat.le_of_not_lt inside
    rw [List.getElem?_append_right outside] at here
    rw [List.getElem?_eq_none outside]
    have blank : firstPiece line = "" := by
      rcases empty with rfl | rfl
      · cases here
      · exact List.mem_singleton.mp (List.mem_of_getElem? here)
    rw [blank]
    rfl

theorem length_le_flatMap_endPieces (earlier : List String) :
    earlier.length ≤ (earlier.flatMap endPieces).length := by
  induction earlier with
  | nil => exact Nat.le_refl _
  | cons l earlier ih =>
    obtain ⟨others, cut, -⟩ := endPieces_eq_cons l
    simp only [List.flatMap_cons, cut, List.length_append, List.length_cons]
    omega

theorem length_lt_flatMap_endPieces (broken : ∃ l ∈ earlier, ¬BreakFree l) :
    earlier.length < (earlier.flatMap endPieces).length := by
  obtain ⟨l, member, isBroken⟩ := broken
  obtain ⟨front, back, rfl⟩ := List.append_of_mem member
  obtain ⟨others, cut, whole⟩ := endPieces_eq_cons l
  have more : 0 < others.length := List.length_pos_iff.mpr fun none => isBroken (whole.mp none)
  have inFront := length_le_flatMap_endPieces front
  have inBack := length_le_flatMap_endPieces back
  simp only [List.flatMap_append, List.flatMap_cons, cut, List.length_append, List.length_cons]
  omega

/-- After a line with another end the count is ahead: a piece of an earlier line is found. -/
theorem lineOf?_of_broken (counted : feedLines text = earlier ++ line :: later)
    (broken : ∃ l ∈ earlier, ¬BreakFree l) :
    ∃ l ∈ earlier, ∃ piece ∈ endPieces l,
      lineOf? text (earlier.length + 1) = some (stripEnd piece) := by
  obtain ⟨last, shown, empty⟩ := flatMap_endPieces text
  have ahead := length_lt_flatMap_endPieces broken
  have found : ((feedLines text).flatMap endPieces)[earlier.length]? =
      some (earlier.flatMap endPieces)[earlier.length] := by
    rw [counted, List.flatMap_append, List.getElem?_append_left ahead,
      List.getElem?_eq_getElem ahead]
  obtain ⟨l, member, isPiece⟩ := List.mem_flatMap.mp (List.getElem_mem ahead)
  refine ⟨l, member, _, isPiece, ?_⟩
  -- the pieces of the line itself come later, so what is found is not a last piece that is no line
  have inside : earlier.length < (lines (Surroundings.plainText text)).length := by
    obtain ⟨others, cut, -⟩ := endPieces_eq_cons line
    have lengths := congrArg List.length shown
    have short : last.length ≤ 1 := by rcases empty with rfl | rfl <;> simp
    simp only [counted, List.flatMap_append, List.flatMap_cons, cut, List.length_append,
      List.length_cons] at lengths
    omega
  rw [shown, List.getElem?_append_left inside] at found
  rw [lineOf?, Nat.add_sub_cancel, found]
  rfl

end

/-! ### What is shown of a line -/

/-- Of what stands before the first other end enough is left to show the line by: only blanks
follow, or it is too long to be shown whole. -/
def IsEnough (line : String) : Prop :=
  (line.toList.dropWhile (!breaksLine ·)).all isBlank = true ∨
    50 < (stripEnd (firstPiece line)).length

theorem shownLine_eq_iff {part whole : String} (begins : part.toList <+: whole.toList) :
    shownLine part = shownLine whole ↔ part = whole ∨ 50 < part.length := by
  have shorter := begins.length_le
  rw [String.length_toList, String.length_toList] at shorter
  unfold shownLine
  by_cases long : 50 < part.length
  · have same : part.toList.take 50 = whole.toList.take 50 := by
      obtain ⟨rest, eq⟩ := begins
      rw [← eq, List.take_append_of_le_length (by rw [String.length_toList]; omega)]
    rw [if_pos long, if_pos (Nat.lt_of_lt_of_le long shorter), takeFirst, takeFirst, same]
    exact iff_of_true rfl (.inr long)
  · rw [if_neg long, or_iff_left long]
    by_cases cut : 50 < whole.length
    · rw [if_pos cut]
      have lengths : (takeFirst 50 whole ++ "...").length = 53 := by
        rw [takeFirst, String.length_append, String.length_ofList, List.length_take,
          String.length_toList, Nat.min_eq_left (Nat.le_of_lt cut)]
        rfl
      refine iff_of_false ?_ ?_
      · rintro rfl
        omega
      · rintro rfl
        exact long cut
    · rw [if_neg cut]

/-- The first piece of a line shows like the line just where it is enough. -/
theorem shownLine_firstPiece (line : String) :
    shownLine (stripEnd (firstPiece line)) = shownLine (stripEnd line) ↔ IsEnough line := by
  have whole : line.toList = (firstPiece line).toList ++ line.toList.dropWhile (!breaksLine ·) := by
    rw [firstPiece, String.toList_ofList, List.takeWhile_append_dropWhile]
  have stripped : (stripEnd line).toList =
      if (line.toList.dropWhile (!breaksLine ·)).all isBlank
      then dropTrailingBlanks (firstPiece line).toList
      else (firstPiece line).toList ++
        dropTrailingBlanks (line.toList.dropWhile (!breaksLine ·)) := by
    rw [← dropTrailingBlanks_append, ← whole, stripEnd, String.toList_ofList]
  have part : (stripEnd (firstPiece line)).toList = dropTrailingBlanks (firstPiece line).toList := by
    rw [stripEnd, String.toList_ofList]
  have within : dropTrailingBlanks (firstPiece line).toList <+: (firstPiece line).toList :=
    List.rdropWhile_prefix isBlank _
  have begins : (stripEnd (firstPiece line)).toList <+: (stripEnd line).toList := by
    rw [part, stripped]
    split
    · exact List.prefix_rfl
    · exact within.trans (List.prefix_append _ _)
  have same : stripEnd (firstPiece line) = stripEnd line ↔
      (line.toList.dropWhile (!breaksLine ·)).all isBlank = true := by
    rw [← String.toList_inj, part, stripped]
    split
    · rename_i blank
      exact iff_of_true rfl blank
    · rename_i seen
      refine iff_of_false (fun eq => seen ?_) seen
      have lengths := congrArg List.length eq
      have short := within.length_le
      rw [List.length_append] at lengths
      have none : dropTrailingBlanks (line.toList.dropWhile (!breaksLine ·)) = [] :=
        List.length_eq_zero_iff.mp (by omega)
      exact List.all_eq_true.mpr (List.rdropWhile_eq_nil_iff.mp none)
  rw [shownLine_eq_iff begins, same, IsEnough]

end SessionPlan.Settings
