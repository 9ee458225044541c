import SessionPlan.Variables
import Mathlib.Data.List.Forall2
import Mathlib.Data.List.TakeWhile

/-! How a text with variables is cut: into characters that stand for themselves, doubled dollar
signs, and references. The cut is a matter of the text alone, and there is just one; what expansion
puts in for one segment hangs neither on the segments around it nor on what was put in for them. -/
namespace SessionPlan
namespace Segment

/-- An identifier or digits only, in ASCII. -/
def IsName : List Char → Prop
  | [] => False
  | c :: rest =>
    ((c.isAlpha = true ∨ c = '_') ∧ ∀ d ∈ rest, d.isAlphanum = true ∨ d = '_') ∨
      (c.isDigit = true ∧ ∀ d ∈ rest, d.isDigit = true)

/-- What may follow a dollar sign: the text after the sign, the segment that it is read as together
with the sign, and the text after the segment. A name without braces is as long as it can be. -/
inductive Follows : List Char → Segment → List Char → Prop
  | escape {rest : List Char} : Follows ('$' :: rest) .escape rest
  | braced {name rest : List Char} (named : IsName name) :
      Follows ('{' :: (name ++ '}' :: rest)) (.reference (String.ofList name) none) rest
  | fallback {name text rest : List Char} (named : IsName name) (unclosed : '}' ∉ text) :
      Follows ('{' :: (name ++ ':' :: '-' :: (text ++ '}' :: rest)))
        (.reference (String.ofList name) (some (String.ofList text))) rest
  | bare {name rest : List Char} (named : IsName name)
      (longest : ∀ other, IsName other → other <+: name ++ rest → other.length ≤ name.length) :
      Follows (name ++ rest) (.reference (String.ofList name) none) rest

/-- A text with the segments that it is made of, from left to right. A dollar sign stands for
itself only where nothing that may follow one does. -/
inductive Cut : List Char → List Segment → Prop
  | nil : Cut [] []
  | plain {c : Char} {rest : List Char} {segments : List Segment} (other : c ≠ '$')
      (later : Cut rest segments) : Cut (c :: rest) (.literal c :: segments)
  | marked {text rest : List Char} {segment : Segment} {segments : List Segment}
      (follows : Follows text segment rest) (later : Cut rest segments) :
      Cut ('$' :: text) (segment :: segments)
  | lone {text : List Char} {segments : List Segment}
      (nothing : ∀ segment rest, ¬Follows text segment rest) (later : Cut text segments) :
      Cut ('$' :: text) (.literal '$' :: segments)

/-! ### Names -/

theorem isDigit_eq (c : Char) : isDigit c = c.isDigit := by
  rw [Bool.eq_iff_iff]
  simp only [isDigit, Char.isDigit, Bool.and_eq_true, decide_eq_true_eq, Char.le_def, ge_iff_le]

theorem startsName_iff {c : Char} : startsName c = true ↔ c.isAlpha = true ∨ c = '_' := by
  have upper : c.isUpper = (decide ('A' ≤ c) && decide (c ≤ 'Z')) := Bool.decide_and ..
  have letter : c.isAlpha = (c.isUpper || (decide ('a' ≤ c) && decide (c ≤ 'z'))) := rfl
  rw [letter, upper, startsName, Bool.or_eq_true, beq_iff_eq]

/-- The characters of a name as the scanner tells them apart. -/
theorem isName_cons {c : Char} {rest : List Char} : IsName (c :: rest) ↔
    (startsName c = true ∧ ∀ d ∈ rest, startsName d = true ∨ isDigit d = true) ∨
      (isDigit c = true ∧ ∀ d ∈ rest, isDigit d = true) := by
  have further (d : Char) : d.isAlphanum = true ∨ d = '_' ↔
      startsName d = true ∨ isDigit d = true := by
    rw [startsName_iff, isDigit_eq, Char.isAlphanum, Bool.or_eq_true, or_right_comm]
  simp only [IsName, further, ← startsName_iff, isDigit_eq]

theorem startsName_of_isDigit {c : Char} (digit : isDigit c = true) : startsName c = false := by
  simp only [isDigit, Bool.and_eq_true, decide_eq_true_eq, Char.le_def, UInt32.le_iff_toNat_le]
    at digit
  change 48 ≤ c.val.toNat ∧ c.val.toNat ≤ 57 at digit
  by_contra starts
  simp only [Bool.not_eq_false, startsName, Bool.or_eq_true, Bool.and_eq_true, decide_eq_true_eq,
    Char.le_def, UInt32.le_iff_toNat_le, beq_iff_eq] at starts
  rcases starts with (upper | lower) | rfl
  · change 65 ≤ c.val.toNat ∧ c.val.toNat ≤ 90 at upper
    omega
  · change 97 ≤ c.val.toNat ∧ c.val.toNat ≤ 122 at lower
    omega
  · exact absurd digit.2 (by decide)

theorem IsName.ne_nil {name : List Char} (named : IsName name) : name ≠ [] := by
  rintro rfl
  exact named

/-- The characters that a name is made of. -/
theorem IsName.mem {name : List Char} (named : IsName name) :
    ∀ c ∈ name, startsName c = true ∨ isDigit c = true := by
  cases name with
  | nil => exact named.elim
  | cons first rest =>
    rcases isName_cons.mp named with ⟨starts, each⟩ | ⟨digit, each⟩
    · exact List.forall_mem_cons.mpr ⟨.inl starts, each⟩
    · exact List.forall_mem_cons.mpr ⟨.inr digit, fun c member => .inr (each c member)⟩

theorem nameOf_isPrefix (s : List Char) : nameOf s <+: s := by
  cases s with
  | nil => exact List.nil_prefix
  | cons c rest =>
    rw [nameOf]
    split
    · exact (List.prefix_cons_inj c).mpr (List.takeWhile_prefix _)
    · exact List.takeWhile_prefix _

theorem isName_nameOf {s : List Char} (found : nameOf s ≠ []) : IsName (nameOf s) := by
  cases s with
  | nil => exact absurd rfl found
  | cons c rest =>
    rw [nameOf] at found
    rw [nameOf]
    split at found
    · rename_i starts
      rw [if_pos starts, isName_cons]
      exact .inl ⟨starts, fun d member => by simpa using List.mem_takeWhile_imp member⟩
    · rename_i starts
      rw [if_neg starts]
      by_cases digit : isDigit c = true
      · rw [List.takeWhile_cons_of_pos digit, isName_cons]
        exact .inr ⟨digit, fun d member => List.mem_takeWhile_imp member⟩
      · rw [List.takeWhile_cons_of_neg digit] at found
        exact absurd rfl found

/-- A name that stands at the start of a text is the beginning of the one that is found there. -/
theorem IsName.prefix_nameOf {name s : List Char} (named : IsName name) (starts : name <+: s) :
    name <+: nameOf s := by
  cases name with
  | nil => exact named.elim
  | cons c name =>
    obtain ⟨rest, rfl⟩ := starts
    rw [List.cons_append, nameOf]
    rcases isName_cons.mp named with ⟨first, each⟩ | ⟨digit, each⟩
    · rw [if_pos first, List.prefix_cons_inj,
        List.takeWhile_append_of_pos fun d member => by simpa using each d member]
      exact List.prefix_append _ _
    · rw [if_neg (by simp [startsName_of_isDigit digit]), List.takeWhile_cons_of_pos digit,
        List.prefix_cons_inj, List.takeWhile_append_of_pos each]
      exact List.prefix_append _ _

/-- A name goes no further than a character that no name holds. -/
theorem IsName.nameOf_append {name : List Char} (named : IsName name) {c : Char}
    (ends : startsName c = false ∧ isDigit c = false) (rest : List Char) :
    nameOf (name ++ c :: rest) = name := by
  obtain ⟨further, whole⟩ := named.prefix_nameOf (List.prefix_append name (c :: rest))
  cases further with
  | nil => simpa using whole.symm
  | cons d further =>
    have text := nameOf_isPrefix (name ++ c :: rest)
    rw [← whole, List.prefix_append_right_inj, List.cons_prefix_cons] at text
    have found : nameOf (name ++ c :: rest) ≠ [] := by simp [← whole]
    have inside := (isName_nameOf found).mem d (by simp [← whole])
    rw [text.1, ends.1, ends.2] at inside
    simp at inside

theorem nameOf_of_longest {name rest : List Char} (named : IsName name)
    (longest : ∀ other, IsName other → other <+: name ++ rest → other.length ≤ name.length) :
    nameOf (name ++ rest) = name := by
  have starts := named.prefix_nameOf (List.prefix_append name rest)
  have found : nameOf (name ++ rest) ≠ [] := by
    intro none
    rw [none, List.prefix_nil] at starts
    exact named.ne_nil starts
  exact (starts.eq_of_length_le (longest _ (isName_nameOf found) (nameOf_isPrefix _))).symm

/-! ### The segment after a dollar sign -/

/-- The reader finds what follows a dollar sign. -/
theorem afterDollar?_of_follows {s rest : List Char} {segment : Segment}
    (follows : Follows s segment rest) :
    ∃ count, afterDollar? s = some (segment, count) ∧ s.drop count = rest := by
  cases follows with
  | escape => exact ⟨1, rfl, rfl⟩
  | @braced name _ named =>
    have read := named.nameOf_append (c := '}') (by decide) rest
    refine ⟨name.length + 1 + 1, ?_, by simp⟩
    simp [afterDollar?, read, named.ne_nil, fallbackOf?]
  | @fallback name text _ named unclosed =>
    have read := named.nameOf_append (c := ':') (by decide) ('-' :: (text ++ '}' :: rest))
    have closed : (text ++ '}' :: rest).takeWhile (· != '}') = text := by
      rw [List.takeWhile_append_of_pos fun c member => by
        simpa using ne_of_mem_of_not_mem member unclosed]
      simp
    refine ⟨name.length + (text.length + 3) + 1, ?_, ?_⟩
    · simp [afterDollar?, read, named.ne_nil, fallbackOf?, closed]
    · have spelled : name ++ ':' :: '-' :: (text ++ '}' :: rest) =
          (name ++ ':' :: '-' :: (text ++ ['}'])) ++ rest := by simp
      rw [List.drop_succ_cons, spelled]
      exact List.drop_left' (by simp)
  | @bare name _ named longest =>
    have read := nameOf_of_longest named longest
    refine ⟨name.length, ?_, List.drop_left⟩
    obtain ⟨c, further, rfl⟩ := List.exists_cons_of_ne_nil named.ne_nil
    have first := named.mem c List.mem_cons_self
    rw [List.cons_append] at read ⊢
    unfold afterDollar?
    split
    · rename_i eq
      cases eq
      exact absurd first (by decide)
    · rename_i eq
      cases eq
      exact absurd first (by decide)
    · simp [read]

/-- A text with a closing brace in it, cut at the first. -/
theorem eq_takeWhile_brace {s : List Char}
    (closed : (s.takeWhile (· != '}')).length < s.length) :
    s = s.takeWhile (· != '}') ++ '}' :: s.drop ((s.takeWhile (· != '}')).length + 1) := by
  induction s with
  | nil => simp at closed
  | cons c rest ih =>
    by_cases brace : c = '}'
    · simp [brace]
    · have go : (c != '}') = true := by simpa using brace
      rw [List.takeWhile_cons_of_pos (p := (· != '}')) go] at closed ⊢
      rw [List.length_cons, List.length_cons, Nat.add_lt_add_iff_right] at closed
      rw [List.cons_append, List.length_cons, List.drop_succ_cons, ← ih closed]

/-- After a name in braces there is the closing brace, or a fallback and then the brace. -/
theorem fallbackOf?_eq_some {s : List Char} {fallback : Option String} {count : Nat}
    (found : fallbackOf? s = some (fallback, count)) :
    (fallback = none ∧ s = '}' :: s.drop count) ∨
      ∃ text, fallback = some (String.ofList text) ∧ '}' ∉ text ∧
        s = ':' :: '-' :: (text ++ '}' :: s.drop count) := by
  unfold fallbackOf? at found
  split at found
  · cases found
    exact .inl ⟨rfl, rfl⟩
  · rename_i rest
    dsimp only at found
    split at found
    · rename_i closed
      cases found
      refine .inr ⟨rest.takeWhile (· != '}'), rfl, fun member => ?_, ?_⟩
      · simpa using List.mem_takeWhile_imp member
      · rw [List.drop_succ_cons, List.drop_succ_cons, ← eq_takeWhile_brace closed]
    · cases found
  · cases found

/-- What the reader finds after a dollar sign does follow it. -/
theorem follows_of_afterDollar? {s : List Char} {segment : Segment} {count : Nat}
    (found : afterDollar? s = some (segment, count)) : Follows s segment (s.drop count) := by
  unfold afterDollar? at found
  split at found
  · cases found
    exact .escape
  · rename_i rest
    have whole := List.prefix_iff_eq_append.mp (nameOf_isPrefix rest)
    dsimp only at found
    split at found
    · cases found
    · rename_i some_name
      have named := isName_nameOf (by simpa using some_name)
      obtain ⟨⟨fallback, n⟩, read, eq⟩ := Option.map_eq_some_iff.mp found
      cases eq
      rw [List.drop_succ_cons, ← List.drop_drop]
      rcases fallbackOf?_eq_some read with ⟨rfl, ends⟩ | ⟨text, rfl, unclosed, ends⟩
      · have braced := @Follows.braced _ ((rest.drop (nameOf rest).length).drop n) named
        rwa [← ends, whole] at braced
      · have braced := @Follows.fallback _ _ ((rest.drop (nameOf rest).length).drop n) named
          unclosed
        rwa [← ends, whole] at braced
  · have whole := List.prefix_iff_eq_append.mp (nameOf_isPrefix s)
    dsimp only at found
    split at found
    · cases found
    · rename_i some_name
      cases found
      have bare := @Follows.bare _ (s.drop (nameOf s).length)
        (isName_nameOf (by simpa using some_name)) fun other named starts => by
          rw [whole] at starts
          exact (named.prefix_nameOf starts).length_le
      rwa [whole] at bare

theorem afterDollar?_eq_none {s : List Char} (none : afterDollar? s = none) (segment : Segment)
    (rest : List Char) : ¬Follows s segment rest := by
  intro follows
  obtain ⟨count, found, -⟩ := afterDollar?_of_follows follows
  rw [none] at found
  cases found

/-! ### The cut -/

theorem scan_eq_drop (count : Nat) (s : List Char) : scan count s = scan 0 (s.drop count) := by
  induction s generalizing count with
  | nil => simp [scan]
  | cons c rest ih =>
    cases count with
    | zero => rfl
    | succ count => rw [scan, ih, List.drop_succ_cons]

/-- The scanner cuts a text. -/
theorem cut_scan (s : List Char) : Cut s (scan 0 s) := by
  match s with
  | [] => exact .nil
  | c :: rest =>
    by_cases dollar : c = '$'
    · subst dollar
      rw [scan, if_pos rfl]
      cases found : afterDollar? rest with
      | none => exact .lone (afterDollar?_eq_none found) (cut_scan rest)
      | some pair =>
        obtain ⟨segment, count⟩ := pair
        refine .marked (follows_of_afterDollar? found) ?_
        rw [scan_eq_drop]
        exact cut_scan (rest.drop count)
    · rw [scan, if_neg dollar]
      exact .plain dollar (cut_scan rest)
termination_by s.length
decreasing_by all_goals (simp only [List.length_cons, List.length_drop]; omega)

/-- Nothing else is a cut of the text. -/
theorem Cut.eq_scan {s : List Char} {segments : List Segment} (cut : Cut s segments) :
    segments = scan 0 s := by
  induction cut with
  | nil => rfl
  | plain other _ ih => rw [scan, if_neg other, ih]
  | marked follows _ ih =>
    obtain ⟨count, found, rest⟩ := afterDollar?_of_follows follows
    simp only [scan, if_true, found, scan_eq_drop count, rest, ih]
  | @lone text _ nothing _ ih =>
    rw [scan, if_pos rfl]
    cases found : afterDollar? text with
    | none => rw [ih]
    | some pair => exact absurd (follows_of_afterDollar? found) (nothing _ _)

/-- A text without a dollar sign is cut into its characters. -/
theorem cut_plain {s : List Char} (plain : '$' ∉ s) : Cut s (s.map .literal) := by
  induction s with
  | nil => exact .nil
  | cons c rest ih =>
    rw [List.mem_cons, not_or] at plain
    exact .plain (Ne.symm plain.1) (ih plain.2)

/-- A name after a dollar sign refers to its variable if something follows it that no name holds. -/
theorem IsName.scan_reference {name : List Char} (named : IsName name) {c : Char}
    (ends : startsName c = false ∧ isDigit c = false) (rest : List Char) :
    scan 0 ('$' :: (name ++ c :: rest)) =
      .reference (String.ofList name) none :: scan 0 (c :: rest) := by
  have longest : ∀ other, IsName other → other <+: name ++ c :: rest →
      other.length ≤ name.length := by
    intro other isName start
    have within := isName.prefix_nameOf start
    rw [named.nameOf_append ends] at within
    exact within.length_le
  exact (Cut.marked (.bare named longest) (cut_scan _)).eq_scan.symm

/-- The variable that a segment refers to. -/
def name? : Segment → Option String
  | .reference name _ => some name
  | _ => none

end Segment

namespace Variables

/-- The variable is set to this text. Of equal names the first counts. -/
def Binds (v : Variables) (name text : String) : Prop :=
  ∃ before after, v.values = before ++ (name, text) :: after ∧ ∀ pair ∈ before, pair.1 ≠ name

/-- What stands in the place of a segment in the end: a value that is set and not empty, or else
the fallback as it is written, or nothing. -/
inductive Replaces (v : Variables) : Segment → String → Prop
  | literal (c : Char) : Replaces v (.literal c) (String.singleton c)
  | escape : Replaces v .escape "$"
  | value {name text : String} {fallback : Option String} (bound : v.Binds name text)
      (some : text ≠ "") : Replaces v (.reference name fallback) text
  | fallback {name : String} {fallback : Option String}
      (none : ∀ text, v.Binds name text → text = "") :
    Replaces v (.reference name fallback) (fallback.getD "")

/-- The variables with this one set to the empty text. -/
def cleared (v : Variables) (name : String) : Variables := ⟨(name, "") :: v.values⟩

/-- The variables without this one. -/
def without (v : Variables) (name : String) : Variables := ⟨v.values.filter (·.1 ≠ name)⟩

variable {v w : Variables} {name text : String}

theorem get?_eq_some_iff : v.get? name = some text ↔ v.Binds name text := by
  rw [get?, List.lookup_eq_some_iff, Binds]
  simp only [bne_iff_ne, ne_comm]

theorem Binds.unique {other : String} (bound : v.Binds name text) (again : v.Binds name other) :
    text = other :=
  Option.some.inj ((get?_eq_some_iff.mpr bound).symm.trans (get?_eq_some_iff.mpr again))

theorem replaces_value (v : Variables) (segment : Segment) :
    v.Replaces segment (Segment.value v segment) := by
  cases segment with
  | literal c => exact .literal c
  | escape => exact .escape
  | reference name fallback =>
    cases found : v.get? name with
    | none =>
      rw [Segment.value, found]
      refine .fallback fun text bound => ?_
      rw [get?_eq_some_iff.mpr bound] at found
      cases found
    | some text =>
      rw [Segment.value, found]
      by_cases empty : text = ""
      · subst empty
        exact .fallback fun text bound => bound.unique (get?_eq_some_iff.mp found)
      · simp only [Option.getD_some, String.isEmpty_iff, empty, if_false]
        exact .value (get?_eq_some_iff.mp found) empty

/-- One text stands in the place of a segment. -/
theorem Replaces.unique {segment : Segment} {text other : String}
    (here : v.Replaces segment text) (again : v.Replaces segment other) : text = other := by
  cases here with
  | literal c => cases again; rfl
  | escape => cases again; rfl
  | value bound some =>
    cases again with
    | value again _ => exact bound.unique again
    | fallback none => exact absurd (none _ bound) some
  | fallback none =>
    cases again with
    | value bound some => exact absurd (none _ bound) some
    | fallback _ => rfl

/-- Only values that are not empty count. -/
theorem Replaces.congr {segment : Segment} (here : v.Replaces segment text)
    (agree : ∀ name ∈ segment.name?, ∀ text, text ≠ "" →
      (v.Binds name text ↔ w.Binds name text)) : w.Replaces segment text := by
  cases here with
  | literal c => exact .literal c
  | escape => exact .escape
  | value bound some => exact .value ((agree _ rfl _ some).mp bound) some
  | fallback none =>
    refine .fallback fun text bound => ?_
    by_contra some
    exact some (none text ((agree _ rfl text some).mpr bound))

theorem binds_cleared {other : String} :
    (v.cleared name).Binds other text ↔
      if other = name then text = "" else v.Binds other text := by
  rw [← get?_eq_some_iff, get?, cleared, List.lookup_cons]
  by_cases here : other = name
  · simp [here, eq_comm]
  · have apart : (other == name) = false := by simpa using here
    rw [apart, if_neg here, ← get?_eq_some_iff, get?]

theorem binds_without {other : String} :
    (v.without name).Binds other text ↔ other ≠ name ∧ v.Binds other text := by
  obtain ⟨values⟩ := v
  simp only [← get?_eq_some_iff, get?, without]
  induction values with
  | nil => simp
  | cons pair values ih =>
    obtain ⟨key, given⟩ := pair
    by_cases removed : key = name
    · rw [List.filter_cons_of_neg (by simp [removed]), ih]
      refine and_congr_right fun apart => ?_
      have differ : (other == key) = false := by simpa [removed] using apart
      rw [List.lookup_cons, differ]
    · rw [List.filter_cons_of_pos (by simpa using removed), List.lookup_cons, List.lookup_cons]
      by_cases here : other = key
      · simp [here, removed]
      · have differ : (other == key) = false := by simpa using here
        rw [differ, ih]

end Variables

/-- Two contexts give the same text if they agree on what it refers to. -/
theorem expand_congr {v w : Variables} {s : String}
    (agree : ∀ name ∈ (Segment.ofText s).filterMap Segment.name?, ∀ text, text ≠ "" →
      (v.Binds name text ↔ w.Binds name text)) : expand v s = expand w s := by
  refine congrArg String.join (List.map_congr_left fun segment member => ?_)
  refine ((v.replaces_value segment).congr fun name refers => ?_).unique (w.replaces_value segment)
  exact agree name (List.mem_filterMap.mpr ⟨segment, member, refers⟩)

theorem expand_plain (v : Variables) {s : String} (plain : '$' ∉ s.toList) : expand v s = s := by
  have cut := (Segment.cut_plain plain).eq_scan
  apply String.toList_inj.mp
  rw [expand, Segment.ofText, ← cut, String.toList_join]
  simp [Segment.value, Function.comp_def, List.flatMap_map]

/-- A text has one cut, whatever the variables are, and expansion replaces its segments in order,
each by itself. So only the variables that the text refers to count, and of them only values that
are not empty: one that is empty might as well not be set, and a text without a dollar sign stays
as it is. -/
theorem expand_cut (s : String) :
    ∃ segments, Segment.Cut s.toList segments ∧
      (∀ others, Segment.Cut s.toList others → others = segments) ∧
      (∀ v : Variables, ∃ texts, List.Forall₂ v.Replaces segments texts ∧
        expand v s = String.join texts ∧
        ∀ others, List.Forall₂ v.Replaces segments others → others = texts) ∧
      (∀ v w : Variables, (∀ name ∈ segments.filterMap Segment.name?, ∀ text, text ≠ "" →
        (v.Binds name text ↔ w.Binds name text)) → expand v s = expand w s) ∧
      (∀ (v : Variables) (name : String),
        expand (v.cleared name) s = expand (v.without name) s) ∧
      ('$' ∉ s.toList → ∀ v, expand v s = s) := by
  refine ⟨Segment.ofText s, Segment.cut_scan s.toList, fun _ cut => cut.eq_scan, fun v => ?_,
    fun _ _ => expand_congr, fun v name => expand_congr fun other _ text some => ?_,
    fun plain v => expand_plain v plain⟩
  · have each : List.Forall₂ v.Replaces (Segment.ofText s)
        ((Segment.ofText s).map (Segment.value v)) :=
      List.forall₂_map_right_iff.mpr (List.forall₂_same.mpr fun segment _ =>
        v.replaces_value segment)
    exact ⟨_, each, rfl, fun others again =>
      List.right_unique_forall₂' (fun _ _ _ here again => here.unique again) again each⟩
  · rw [Variables.binds_cleared, Variables.binds_without]
    by_cases here : other = name
    · simp [here, some]
    · simp [here]

/-- Variables that are set, one of them to nothing, and one that is set twice. -/
def mixedVariables : Variables := ⟨[("USER", "ann"), ("1", "$USER"), ("EMPTY", ""), ("1", "vim")]⟩

/-- References that are set, unset and empty, with and without a fallback. -/
def mixedText : String :=
  "$USER $\x7bUSER:-none\x7d $1x $\x7bHOST:-$USER\x7d $\x7bEMPTY:-none\x7d|$EMPTY$HOST$USER_|$$ $?"

/-- Neither a value nor a fallback is read again, and a lone dollar sign stays. -/
theorem expand_cut_mixed :
    expand mixedVariables mixedText = "ann ann $USERx $USER none||$ $?" ∧
    ∃ segments texts, Segment.Cut mixedText.toList segments ∧
      List.Forall₂ mixedVariables.Replaces segments texts ∧
      String.join texts = "ann ann $USERx $USER none||$ $?" := by
  have expanded : expand mixedVariables mixedText = "ann ann $USERx $USER none||$ $?" := by
    decide +kernel
  obtain ⟨segments, cut, -, replaced, -⟩ := expand_cut mixedText
  obtain ⟨texts, each, joined, -⟩ := replaced mixedVariables
  exact ⟨expanded, segments, texts, cut, each, joined.symm.trans expanded⟩

end SessionPlan
