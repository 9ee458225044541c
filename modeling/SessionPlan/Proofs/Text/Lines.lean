import SessionPlan.Proofs.Text.Decimal
import SessionPlan.Text.Search
import Mathlib.Data.List.Infix

/-! Lines: what becomes of a line feed where text is replaced, and when texts that are written a
line each are found again by cutting at the line feeds. -/
namespace SessionPlan.Text

/-- A text without a line feed. -/
def OneLine (s : String) : Prop := '\n' ∉ s.toList

instance : DecidablePred OneLine := fun s => inferInstanceAs (Decidable ('\n' ∉ s.toList))

/-- Texts of one line each. -/
def AllOneLine (texts : List String) : Prop := ∀ s ∈ texts, OneLine s

instance : DecidablePred AllOneLine := fun texts =>
  inferInstanceAs (Decidable (∀ s ∈ texts, OneLine s))

@[simp] theorem allOneLine_nil : AllOneLine [] := by simp [AllOneLine]

@[simp] theorem allOneLine_cons {s : String} {texts : List String} :
    AllOneLine (s :: texts) ↔ OneLine s ∧ AllOneLine texts := List.forall_mem_cons

@[simp] theorem allOneLine_append {texts later : List String} :
    AllOneLine (texts ++ later) ↔ AllOneLine texts ∧ AllOneLine later := List.forall_mem_append

theorem oneLine_append {s t : String} : OneLine (s ++ t) ↔ OneLine s ∧ OneLine t := by
  simp [OneLine, not_or]

theorem oneLine_ofNat (n : Nat) : OneLine (ofNat n) := fun member =>
  absurd (isDigit_of_mem_ofNat member) (by decide)

theorem oneLine_repr (n : Int) : OneLine n.repr := by
  rw [← ofInt_eq_repr]
  cases n with
  | ofNat k => exact oneLine_ofNat k
  | negSucc k =>
    have digits := oneLine_ofNat (k + 1)
    rw [OneLine, ofNat, String.toList_ofList] at digits
    simp [OneLine, ofInt, digits]

/-! ### Replacing -/

/-- Apart from what is replaced, the characters stay, and the new ones are there if anything was
replaced. -/
theorem mem_replaceFrom {old new : List Char} {x : Char} (nonempty : old ≠ []) (apart : x ∉ old)
    (skip : Nat) (s : List Char) :
    x ∈ replaceFrom old new skip s ↔ x ∈ s.drop skip ∨ x ∈ new ∧ old <:+: s.drop skip := by
  fun_induction replaceFrom old new skip s with
  | case1 skip => simp [nonempty]
  | case2 skip c rest ih => exact ih
  | case3 c rest found ih =>
    obtain ⟨after, whole⟩ := List.isPrefixOf_iff_prefix.mp found
    have dropped : rest.drop (old.length - 1) = after := by
      obtain ⟨first, others, rfl⟩ := List.exists_cons_of_ne_nil nonempty
      obtain ⟨rfl, rfl⟩ := List.cons_eq_cons.mp whole
      simp
    have here : old <:+: c :: rest := (List.isPrefixOf_iff_prefix.mp found).isInfix
    have kept : x ∈ c :: rest ↔ x ∈ after := by simp [← whole, apart]
    rw [dropped] at ih
    rw [List.mem_append, ih, List.drop_zero, kept]
    tauto
  | case4 c rest absent ih =>
    have later : old <:+: c :: rest ↔ old <:+: rest := by
      rw [List.infix_cons_iff, ← List.isPrefixOf_iff_prefix]
      simp [absent]
    rw [List.mem_cons, ih, List.drop_zero, List.drop_zero, List.mem_cons, later, or_assoc]

theorem oneLine_replace {s old new : String} (nonempty : old ≠ "") (plain : OneLine old) :
    OneLine (replace s old new) ↔ OneLine s ∧ (OneLine new ∨ ¬old.toList <:+: s.toList) := by
  have some_char : old.toList ≠ [] := by simpa using nonempty
  rw [OneLine, replace, String.toList_ofList, mem_replaceFrom some_char plain, List.drop_zero,
    not_or, not_and_or]
  rfl

/-! ### Cutting -/

/-- Each separator is cut at, whatever stands around it. -/
theorem splitList_append (separator : Char) (s rest : List Char) :
    splitList separator (s ++ separator :: rest) =
      splitList separator s ++ splitList separator rest := by
  induction s with
  | nil =>
    obtain ⟨piece, pieces, cut⟩ := List.exists_cons_of_ne_nil (splitList_ne_nil separator rest)
    rw [List.nil_append, splitList, cut]
    simp [splitList, cut]
  | cons c s ih =>
    obtain ⟨piece, pieces, cut⟩ := List.exists_cons_of_ne_nil (splitList_ne_nil separator s)
    rw [List.cons_append, splitList, splitList, ih, cut]
    by_cases same : c = separator <;> simp [same]

theorem splitList_of_absent {separator : Char} {s : List Char} (absent : separator ∉ s) :
    splitList separator s = [s] := by
  induction s with
  | nil => rfl
  | cons c s ih =>
    have other : c ≠ separator := fun same => absent (same ▸ List.mem_cons_self)
    have later := ih fun member => absent (List.mem_cons_of_mem _ member)
    rw [splitList, later]
    simp [other]

theorem splitList_of_not_mem {separator : Char} {s : List Char} (whole : separator ∉ s)
    (rest : List Char) :
    splitList separator (s ++ separator :: rest) = s :: splitList separator rest := by
  rw [splitList_append, splitList_of_absent whole, List.singleton_append]

/-- The pieces with separators between them are the text. -/
theorem intercalate_splitList (separator : Char) (s : List Char) :
    [separator].intercalate (splitList separator s) = s := by
  induction s with
  | nil => rfl
  | cons c s ih =>
    obtain ⟨piece, pieces, cut⟩ := List.exists_cons_of_ne_nil (splitList_ne_nil separator s)
    rw [cut] at ih
    rw [splitList, cut]
    by_cases same : c = separator
    · simp only [same, if_true]
      rw [List.intercalate_cons_cons, ih]
      simp
    · simp only [same, if_false]
      cases pieces with
      | nil => simpa using ih
      | cons next rest =>
        rw [List.intercalate_cons_cons] at ih ⊢
        simp [← ih]

theorem split_append (s rest : String) (separator : Char) :
    split (s ++ String.singleton separator ++ rest) separator =
      split s separator ++ split rest separator := by
  have chars : (s ++ String.singleton separator ++ rest).toList =
      s.toList ++ separator :: rest.toList := by simp
  rw [split, chars, splitList_append, List.map_append]
  rfl

theorem split_of_absent {s : String} {separator : Char} (absent : separator ∉ s.toList) :
    split s separator = [s] := by
  rw [split, splitList_of_absent absent, List.map_singleton, String.ofList_toList]

theorem split_ne_nil (s : String) (separator : Char) : split s separator ≠ [] := by
  rw [split, Ne, List.map_eq_nil_iff]
  exact splitList_ne_nil separator s.toList

theorem join_split (s : String) (separator : Char) :
    join (String.singleton separator) (split s separator) = s := by
  apply String.toList_injective
  rw [join, split, String.toList_intercalate, List.map_map]
  have same : String.toList ∘ String.ofList = id := funext fun _ => String.toList_ofList
  rw [same, List.map_id, String.toList_singleton, intercalate_splitList]

theorem not_mem_of_mem_splitList {separator : Char} {s piece : List Char}
    (h : piece ∈ splitList separator s) : separator ∉ piece := by
  induction s generalizing piece with
  | nil => simp_all [splitList]
  | cons c rest ih =>
    rw [splitList] at h
    split at h
    · rename_i empty; exact absurd empty (splitList_ne_nil separator rest)
    · rename_i first further pieces
      have known (other : List Char) (member : other ∈ first :: further) : separator ∉ other :=
        ih (pieces ▸ member)
      split at h
      · rcases List.mem_cons.mp h with rfl | member
        · simp
        · exact known piece member
      · rename_i other
        rcases List.mem_cons.mp h with rfl | member
        · have clear := known first List.mem_cons_self
          simp [Ne.symm other, clear]
        · exact known piece (List.mem_cons_of_mem _ member)

/-- The pieces before the one in which `rest` begins: they are as many as the separators in `s`, and
their characters stand before the last one of `s`, as a separator follows them. -/
theorem splitList_before (separator : Char) (s rest : List Char) : ∃ earlier line later,
    splitList separator (s ++ rest) = earlier ++ line :: later ∧
      earlier.length = s.count separator ∧ ∀ piece ∈ earlier, ∀ c ∈ piece, c ∈ s.dropLast := by
  induction s with
  | nil =>
    obtain ⟨line, later, cut⟩ := List.exists_cons_of_ne_nil (splitList_ne_nil separator rest)
    exact ⟨[], line, later, cut, rfl, List.forall_mem_nil _⟩
  | cons a s ih =>
    obtain ⟨earlier, line, later, cut, count, within⟩ := ih
    have last (piece : List Char) (member : piece ∈ earlier) :
        a ∈ (a :: s).dropLast ∧ ∀ c ∈ piece, c ∈ (a :: s).dropLast := by
      have some_char : s ≠ [] := by
        rintro rfl
        rw [List.length_eq_zero_iff.mp count] at member
        cases member
      rw [List.dropLast_cons_of_ne_nil some_char]
      exact ⟨List.mem_cons_self, fun c inside =>
        List.mem_cons_of_mem _ (within piece member c inside)⟩
    by_cases same : a = separator
    · refine ⟨[] :: earlier, line, later, ?_, ?_, ?_⟩
      · rw [List.cons_append, splitList, cut]
        cases earlier <;> simp [same]
      · simp [same, count]
      · exact List.forall_mem_cons.mpr
          ⟨List.forall_mem_nil _, fun piece member => (last piece member).2⟩
    · cases earlier with
      | nil =>
        refine ⟨[], a :: line, later, ?_, ?_, List.forall_mem_nil _⟩
        · rw [List.cons_append, splitList, cut]
          simp [same]
        · rw [List.count_cons_of_ne same, ← count]
      | cons first earlier =>
        refine ⟨(a :: first) :: earlier, line, later, ?_, ?_, ?_⟩
        · rw [List.cons_append, splitList, cut]
          simp [same]
        · rw [List.count_cons_of_ne same, ← count]
          rfl
        · obtain ⟨here, inFirst⟩ := last first List.mem_cons_self
          refine List.forall_mem_cons.mpr ⟨List.forall_mem_cons.mpr ⟨here, inFirst⟩, ?_⟩
          exact fun piece member => (last piece (List.mem_cons_of_mem _ member)).2

/-- Pieces that are each ended by a separator are found again just where none of them holds one. -/
theorem splitList_ended (separator : Char) (pieces : List (List Char)) :
    splitList separator (pieces.flatMap (· ++ [separator])) = pieces ++ [[]] ↔
      ∀ piece ∈ pieces, separator ∉ piece := by
  constructor
  · intro found piece member
    exact not_mem_of_mem_splitList (found ▸ List.mem_append_left _ member)
  · intro whole
    induction pieces with
    | nil => rfl
    | cons piece rest ih =>
      have later := ih fun other member => whole other (List.mem_cons_of_mem _ member)
      rw [List.flatMap_cons, List.append_assoc, List.singleton_append,
        splitList_of_not_mem (whole piece List.mem_cons_self), later, List.cons_append]

/-- Texts that are written a line each are the lines of the whole just where each is one line. -/
theorem split_lines (lines : List String) :
    split (String.join (lines.map (· ++ "\n"))) '\n' = lines ++ [""] ↔ AllOneLine lines := by
  have written : (String.join (lines.map (· ++ "\n"))).toList =
      (lines.map String.toList).flatMap (· ++ ['\n']) := by
    simp [String.toList_join, List.flatMap_map]
  have texts : lines ++ [""] = (lines.map String.toList ++ [[]]).map String.ofList := by
    simp
  rw [split, written, texts, List.map_inj_right fun _ _ => String.ofList_inj.mp, splitList_ended,
    List.forall_mem_map]
  rfl

/-! ### Reading lines -/

/-- A text in which no line ends, in any of the ways that a line can end. -/
def BreakFree (s : String) : Prop := ∀ c ∈ s.toList, breaksLine c = false

-- character by character, for a test of all characters there are would never end
instance : DecidablePred BreakFree := fun s =>
  List.decidableBAll (fun c => breaksLine c = false) s.toList

theorem breakFree_append {s t : String} : BreakFree (s ++ t) ↔ BreakFree s ∧ BreakFree t := by
  simp [BreakFree, or_imp, forall_and]

theorem breakFree_ofInt (n : Int) : BreakFree (ofInt n) := by
  intro c member
  have solid := isBlank_of_mem_ofInt member
  simp only [isBlank, Bool.or_eq_false_iff, Bool.and_eq_false_iff, decide_eq_false_iff_not,
    beq_eq_false_iff_ne] at solid
  simp only [breaksLine, Bool.or_eq_false_iff, Bool.and_eq_false_iff, decide_eq_false_iff_not,
    beq_eq_false_iff_ne]
  omega

/-- A carriage return does not end a line by itself where a line feed comes next. -/
theorem linesFrom_cons_break {c : Char} (ends : breaksLine c = true) (single : c ≠ '\r')
    (line rest : List Char) : linesFrom line (c :: rest) = line.reverse :: linesFrom [] rest := by
  rw [linesFrom, if_pos ends]
  exact fun _ here => absurd here single

theorem linesFrom_cons {c : Char} (unbroken : breaksLine c = false) (line rest : List Char) :
    linesFrom line (c :: rest) = linesFrom (c :: line) rest := by
  rw [linesFrom, unbroken]
  · rfl
  · rintro _ rfl
    exact absurd unbroken (by decide)

theorem linesFrom_append {s : List Char} (unbroken : ∀ c ∈ s, breaksLine c = false)
    (line rest : List Char) :
    linesFrom line (s ++ rest) = linesFrom (s.reverse ++ line) rest := by
  induction s generalizing line with
  | nil => rfl
  | cons c s ih =>
    obtain ⟨first, others⟩ := List.forall_mem_cons.mp unbroken
    rw [List.cons_append, linesFrom_cons first, ih others]
    simp

theorem lines_append {s : String} (unbroken : BreakFree s) (rest : String) :
    lines (s ++ "\n" ++ rest) = s :: lines rest := by
  rw [lines, String.toList_append, String.toList_append, List.append_assoc,
    linesFrom_append unbroken, List.append_nil]
  have step : linesFrom s.toList.reverse ("\n".toList ++ rest.toList) =
      s.toList.reverse.reverse :: linesFrom [] rest.toList := rfl
  rw [step]
  simp [lines]

theorem lines_of_breakFree {s : String} (unbroken : BreakFree s) :
    lines s = if s.isEmpty then [] else [s] := by
  have whole := linesFrom_append unbroken [] []
  rw [List.append_nil, List.append_nil] at whole
  rw [lines, whole, linesFrom]
  by_cases empty : s = ""
  · subst empty; rfl
  · have some_char : s.toList ≠ [] := by simpa using empty
    simp [empty, some_char]

end SessionPlan.Text
