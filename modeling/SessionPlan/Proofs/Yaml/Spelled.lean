import Mathlib.Data.Bool.AllAny
import SessionPlan.Proofs.Yaml.Runs

/-! What the writer makes of a text: a plain text and one in single quotes may be broken at single
spaces, and one in double quotes anywhere with a backslash. Where the page stands decides which of
these spellings a text gets, and nothing else depends on that. -/
namespace SessionPlan.Yaml
open SessionPlan.Text

/-- Letters of the names of fields. -/
def nameChars : List Char := "abcdefghijklmnopqrstuvwxyz_".toList

/-- A line break and the indentation of the line that it begins. -/
def newLine (column : Nat) : List Char := '\n' :: List.replicate column ' '

/-! ### Spellings of texts -/

/-- Runs of a text that goes on at `column` after a break, each as `spell` tells. -/
inductive Laid (spell : RunKind → List Char → List Char) (column : Nat) :
    List (RunKind × List Char) → List Char → Prop
  | nil : Laid spell column [] []
  | run (kind : RunKind) (run : List Char) {rest : List (RunKind × List Char)} {s : List Char}
      (later : Laid spell column rest s) : Laid spell column ((kind, run) :: rest) (spell kind run ++ s)
  | folded {rest : List (RunKind × List Char)} {s : List Char} (later : Laid spell column rest s) :
    Laid spell column ((.spaces, [' ']) :: rest) (newLine column ++ s)

/-- A run in single quotes. -/
def singleRun (column : Nat) : RunKind → List Char → List Char
  | .word, run => run.flatMap fun c => if c = '\'' then ['\'', '\''] else [c]
  | .spaces, run => run
  | .breaks, run =>
    (if run.head? = some '\n' then ['\n'] else []) ++ run ++ List.replicate column ' '

/-- A text in double quotes. Where a line is joined to the next one, no blank comes first. -/
inductive Escaped (column : Nat) : List Char → List Char → Prop
  | nil : Escaped column [] []
  | blank {t s : List Char} (later : Escaped column t s) : Escaped column (' ' :: t) (' ' :: s)
  | literal {c : Char} {t s : List Char} (solid : c ≠ ' ') (stands : isLiteral c = true)
      (later : Escaped column t s) : Escaped column (c :: t) (c :: s)
  | escape {c : Char} {t s : List Char} (escaped : isLiteral c = false)
      (later : Escaped column t s) : Escaped column (c :: t) (escapeText c ++ s)
  | escapedBlank {t s : List Char} (later : Escaped column t s) :
    Escaped column (' ' :: t) ('\\' :: ' ' :: s)
  | joined {t s : List Char} (solid : s.head? ≠ some ' ') (later : Escaped column t s) :
    Escaped column t ('\\' :: (newLine column ++ s))

/-- A text in one of the three styles, with its quotes. -/
def SpellsText (column : Nat) (style : Style) (t s : List Char) : Prop :=
  match style with
  | .plain => Laid (fun _ run => run) column (runs t) s
  | .single => ∃ inner, Laid (singleRun column) column (runs t) inner ∧ s = '\'' :: (inner ++ ['\''])
  | .double => ∃ inner, Escaped column t inner ∧ s = '"' :: (inner ++ ['"'])

/-! ### Moving about the page -/

namespace Page
variable {p : Page} {indent : Nat}

/-- The page after `s` has been written on it. -/
def Adds (p q : Page) (s : List Char) : Prop := q.written = s.reverse ++ p.written

theorem Adds.refl (p : Page) : p.Adds p [] := rfl

theorem Adds.trans {p q r : Page} {s t : List Char} (first : p.Adds q s) (second : q.Adds r t) :
    p.Adds r (s ++ t) := by
  rw [Adds, second, first, List.reverse_append, List.append_assoc]

theorem adds_put (p : Page) (s : List Char) : p.Adds (p.put s) s := rfl

/-- Whether a line is begun that may not go on at the column. -/
def Busy (p : Page) (indent : Nat) : Prop := p.bare = false ∨ indent < p.column

/-- The place where something begins in a block at the column. -/
def StandsAt (p : Page) (indent : Nat) : Prop :=
  p.column = indent ∧ p.spaced = true ∧ p.bare = true

theorem indentTo_busy (busy : p.Busy indent) :
    p.indentTo indent = ⟨(newLine indent).reverse ++ p.written, indent, true, true⟩ := by
  have new : (!p.bare || decide (indent < p.column) || (p.column == indent && !p.spaced)) = true := by
    rcases busy with filled | beyond
    · simp [filled]
    · simp [beyond]
  rw [indentTo, if_pos new]
  cases indent with
  | zero => rfl
  | succ indent => simp [put, breakLine, newLine]

/-- A bare line goes on up to the column. -/
theorem indentTo_bare (bare : p.bare = true) (before : p.column < indent) :
    p.indentTo indent =
      ⟨List.replicate (indent - p.column) ' ' ++ p.written, indent, true, true⟩ := by
  have same : (!p.bare || decide (indent < p.column) || (p.column == indent && !p.spaced)) = false := by
    simp [bare, Nat.le_of_lt before, Nat.ne_of_lt before]
  rw [indentTo, same]
  simp [before, put, bare]
  omega

theorem indentTo_standing (stands : p.StandsAt indent) : p.indentTo indent = p := by
  obtain ⟨rfl, spaced, bare⟩ := stands
  simp [indentTo, spaced, bare]

/-- The page inside or after a scalar. -/
def Filled (p : Page) : Prop := p.spaced = false ∧ p.bare = false

end Page

/-! ### Writing texts -/

theorem eq_space_of_breaksAt {p : Page} {split : Bool} {run : List Char}
    (known : IsRun (.spaces, run)) (breaks : breaksAt p split run = true) : run = [' '] := by
  simp only [breaksAt, Bool.and_eq_true, beq_iff_eq] at breaks
  obtain ⟨c, rfl⟩ := List.length_eq_one_iff.mp breaks.1.2
  rw [runKind_spaces.mp (known.2 c List.mem_cons_self)]

theorem plainRuns_laid (split : Bool) (indent : Nat) {rs : List (RunKind × List Char)}
    (known : ∀ r ∈ rs, IsRun r) {p : Page} (filled : p.Filled) :
    ∃ s, p.Adds (plainRuns split indent rs p) s ∧ Laid (fun _ run => run) indent rs s ∧
      (plainRuns split indent rs p).Filled := by
  induction rs generalizing p with
  | nil => exact ⟨[], .refl p, .nil, filled⟩
  | cons r rs ih =>
    obtain ⟨kind, run⟩ := r
    obtain ⟨first, others⟩ := List.forall_mem_cons.mp known
    rw [plainRuns]
    dsimp only
    split
    · rename_i breaks
      simp only [Bool.and_eq_true, decide_eq_true_eq] at breaks
      obtain ⟨rfl, breaks⟩ := breaks
      obtain rfl := eq_space_of_breaksAt first breaks
      have new : p.Adds { p.indentTo indent with spaced := false, bare := false }
          (newLine indent) := by
        rw [Page.indentTo_busy (.inl filled.2)]
        rfl
      obtain ⟨s, adds, laid, done⟩ := ih others (p := { p.indentTo indent with
        spaced := false, bare := false }) ⟨rfl, rfl⟩
      exact ⟨_, new.trans adds, .folded laid, done⟩
    · obtain ⟨s, adds, laid, done⟩ := ih others (p := p.put run) filled
      exact ⟨_, (Page.adds_put p run).trans adds, .run kind run laid, done⟩

theorem writeBreaks_eq (run : List Char) (nonempty : run ≠ []) (p : Page) :
    writeBreaks run p = ⟨((if run.head? = some '\n' then ['\n'] else []) ++ run).reverse ++ p.written,
      0, true, true⟩ := by
  have fold (run : List Char) (p : Page) : run ≠ [] →
      run.foldl Page.breakLine p = ⟨run.reverse ++ p.written, 0, true, true⟩ := by
    induction run generalizing p with
    | nil => simp
    | cons c run ih =>
      intro _
      cases run with
      | nil => rfl
      | cons d run => simpa [Page.breakLine] using ih (p.breakLine c) (List.cons_ne_nil d run)
  rw [writeBreaks, fold _ _ nonempty]
  split <;> simp [Page.breakLine]

/-- After a word in single quotes a line is begun. -/
theorem busy_put_word {indent : Nat} {run : List Char} (nonempty : run ≠ []) {p : Page}
    (reached : p.bare = false ∨ indent ≤ p.column) :
    (p.put (singleRun indent .word run)).Busy indent := by
  have positive : 0 < (singleRun indent .word run).length := by
    obtain ⟨c, rest, rfl⟩ := List.exists_cons_of_ne_nil nonempty
    rw [singleRun, List.flatMap_cons]
    split <;> exact Nat.succ_pos _
  rcases reached with filled | reached
  · exact .inl filled
  · exact .inr (Nat.lt_of_le_of_lt reached (Nat.lt_add_of_pos_right positive))

/-- Breaks in single quotes, and the indentation of the line that goes on. -/
theorem writeBreaks_adds {run : List Char} (nonempty : run ≠ []) (indent : Nat) (p : Page) :
    p.Adds ((writeBreaks run p).indentTo indent) (singleRun indent .breaks run) ∧
      ((writeBreaks run p).indentTo indent).column = indent := by
  rw [writeBreaks_eq run nonempty]
  cases indent with
  | zero => exact ⟨by simp [Page.indentTo, Page.Adds, singleRun], rfl⟩
  | succ indent =>
    rw [Page.indentTo_bare rfl (Nat.succ_pos indent)]
    exact ⟨by simp [Page.Adds, singleRun], rfl⟩

/-- Within single quotes a line that a break began is bare, and holds its indentation. -/
theorem singleRuns_laid (split : Bool) (indent : Nat) (first : Bool)
    {rs : List (RunKind × List Char)} (known : ∀ r ∈ rs, IsRun r)
    (apart : rs.IsChain fun a b => a.1 ≠ b.1 ∧ (a.1 = .word ∨ b.1 = .word)) {p : Page}
    (reached : p.bare = false ∨ indent ≤ p.column)
    (busy : ∀ r ∈ rs.head?, r.1 = .spaces → p.Busy indent) :
    ∃ s, p.Adds (singleRuns split indent first rs p) s ∧ Laid (singleRun indent) indent rs s := by
  induction rs generalizing p first with
  | nil => exact ⟨[], .refl p, .nil⟩
  | cons r rs ih =>
    obtain ⟨kind, run⟩ := r
    obtain ⟨one, others⟩ := List.forall_mem_cons.mp known
    have worded : kind ≠ .word → ∀ r ∈ rs.head?, r.1 = .spaces → False := by
      rintro gap r head spaces
      cases rs with
      | nil => cases head
      | cons r' rs =>
        cases head
        rcases (List.isChain_cons_cons.mp apart).1.2 with word | word
        · exact gap word
        · simp [spaces] at word
    rw [singleRuns.eq_def]
    cases kind with
    | word =>
      have further := busy_put_word one.1 reached
      obtain ⟨s, adds, laid⟩ := ih false others apart.tail (p := p.put (singleRun indent .word run))
        (further.imp_right Nat.le_of_lt) fun _ _ _ => further
      exact ⟨_, (Page.adds_put p _).trans adds, .run .word run laid⟩
    | spaces =>
      dsimp only
      split
      · rename_i breaks
        simp only [Bool.and_eq_true] at breaks
        obtain rfl := eq_space_of_breaksAt one breaks.1.1
        have new : p.indentTo indent =
            ⟨(newLine indent).reverse ++ p.written, indent, true, true⟩ :=
          Page.indentTo_busy (busy _ rfl rfl)
        obtain ⟨s, adds, laid⟩ := ih false others apart.tail (p := p.indentTo indent)
          (.inr (by rw [new])) fun r head spaces => (worded (by simp) r head spaces).elim
        refine ⟨_, Page.Adds.trans ?_ adds, .folded laid⟩
        rw [new]
        rfl
      · obtain ⟨s, adds, laid⟩ := ih false others apart.tail (p := p.put run)
          (reached.imp_right fun reached => Nat.le_add_right_of_le reached)
          fun r head spaces => (worded (by simp) r head spaces).elim
        exact ⟨_, (Page.adds_put p run).trans adds, .run .spaces run laid⟩
    | breaks =>
      obtain ⟨new, column⟩ := writeBreaks_adds one.1 indent p
      obtain ⟨s, adds, laid⟩ := ih false others apart.tail (p := (writeBreaks run p).indentTo indent)
        (.inr (Nat.le_of_eq column.symm)) fun r head spaces => (worded (by simp) r head spaces).elim
      exact ⟨_, new.trans adds, .run .breaks run laid⟩

theorem escapeText_eq_cons (c : Char) : ∃ rest, escapeText c = '\\' :: rest := by
  unfold escapeText
  split <;> exact ⟨_, rfl⟩

theorem Escaped.head {column : Nat} {t s : List Char} (h : Escaped column t s)
    (solid : t.head? ≠ some ' ') : s.head? ≠ some ' ' := by
  cases h with
  | nil => simp
  | blank => simp at solid
  | literal solid => simpa using solid
  | @escape c =>
    obtain ⟨rest, text⟩ := escapeText_eq_cons c
    simp [text]
  | escapedBlank => simp
  | joined => simp

/-- What joining a line to the next one adds to the page. -/
theorem joinLine_adds {p : Page} (bare : p.bare = false) (indent : Nat) (next : Option Char) :
    p.Adds (joinLine indent next p)
        ('\\' :: (newLine indent ++ if next = some ' ' then ['\\'] else [])) ∧
      (joinLine indent next p).bare = false ∧ (joinLine indent next p).column ≤ indent + 1 := by
  have broken : (p.put ['\\']).indentTo indent = _ := Page.indentTo_busy (.inl bare)
  rw [joinLine, broken]
  split <;> simp [Page.Adds, Page.put]

section Escaped
variable {column : Nat} {c : Char} {t s : List Char}

theorem Escaped.cons (stands : isLiteral c = true) (later : Escaped column t s) :
    Escaped column (c :: t) (c :: s) := by
  by_cases space : c = ' '
  · exact space ▸ .blank later
  · exact .literal space stands later

/-- The first character of a line that is joined to the one before. -/
theorem Escaped.cons_joined (stands : isLiteral c = true) (later : Escaped column t s) :
    Escaped column (c :: t)
      (('\\' :: (newLine column ++ if some c = some ' ' then ['\\'] else []) ++ [c]) ++ s) := by
  by_cases space : c = ' '
  · subst space
    simpa using Escaped.joined (by simp) (.escapedBlank later)
  · simpa [space] using Escaped.joined (by simpa using space) (.literal space stands later)

end Escaped

/-- A blank stays on a line that does not reach the width. -/
theorem doubleFrom_blank (split : Bool) (indent : Nat) (first afterEscape : Bool) (t : List Char)
    {p : Page} (narrow : p.column ≤ width) :
    doubleFrom split indent first afterEscape (' ' :: t) p =
      doubleFrom split indent false false t (p.put [' ']) := by
  have stays : ¬width < p.column := Nat.not_lt.mpr narrow
  rw [doubleFrom, if_pos (by decide)]
  simp [stays]

/-- A line that is joined to the next one is not joined again at once, since it begins before the
width. -/
theorem doubleFrom_escaped (split : Bool) {indent : Nat} (narrow : indent < width) {t : List Char}
    (first afterEscape : Bool) {p : Page} (bare : p.bare = false) :
    ∃ s, p.Adds (doubleFrom split indent first afterEscape t p) s ∧ Escaped indent t s := by
  induction hn : t.length using Nat.strongRecOn generalizing t first afterEscape p with
  | ind n ih =>
    cases t with
    | nil => exact ⟨[], .refl p, .nil⟩
    | cons c t =>
      have later {q : Page} (first after : Bool) (bare : q.bare = false) :
          ∃ s, q.Adds (doubleFrom split indent first after t q) s ∧ Escaped indent t s :=
        ih t.length (by simp [← hn]) first after bare rfl
      rw [doubleFrom]
      by_cases stands : isLiteral c = true
      · rw [if_pos stands]
        dsimp only
        split
        · obtain ⟨joined, bare, -⟩ := joinLine_adds bare indent (some c)
          obtain ⟨s, adds, escaped⟩ := later (q := (joinLine indent (some c) p).put [c]) false false bare
          exact ⟨_, (joined.trans (Page.adds_put _ [c])).trans adds, escaped.cons_joined stands⟩
        · obtain ⟨s, adds, escaped⟩ := later (q := p.put [c]) false false bare
          exact ⟨_, (Page.adds_put p [c]).trans adds, escaped.cons stands⟩
      · rw [if_neg stands]
        dsimp only
        have escape := Bool.eq_false_iff.mpr stands
        split
        · rename_i wide
          obtain ⟨joined, bare', column⟩ :=
            joinLine_adds (p := p.put (escapeText c)) bare indent t.head?
          by_cases space : t.head? = some ' '
          · -- the blank that comes next has its own backslash already
            obtain ⟨t, rfl⟩ : ∃ t', t = ' ' :: t' := by
              cases t with
              | nil => cases space
              | cons d t => cases space; exact ⟨t, rfl⟩
            rw [doubleFrom_blank _ _ _ _ _ (Nat.le_trans column narrow)]
            obtain ⟨s, adds, escaped⟩ := ih t.length (by simp only [← hn, List.length_cons]; omega)
              false false (p := (joinLine indent (some ' ') (p.put (escapeText c))).put [' ']) bare' rfl
            refine ⟨_, (((Page.adds_put p _).trans joined).trans (Page.adds_put _ [' '])).trans adds, ?_⟩
            simpa using Escaped.escape escape (.joined (by simp) (.escapedBlank escaped))
          · obtain ⟨s, adds, escaped⟩ := later false true bare'
            refine ⟨_, ((Page.adds_put p _).trans joined).trans adds, ?_⟩
            simpa [space] using Escaped.escape escape (.joined (escaped.head space) escaped)
        · obtain ⟨s, adds, escaped⟩ := later (q := p.put (escapeText c)) false true bare
          exact ⟨_, (Page.adds_put p _).trans adds, .escape escape escaped⟩

/-- A plain text comes after a space, unless one is there. -/
theorem writePlain_spells (split : Bool) (indent : Nat) {t : List Char} (nonempty : t ≠ [])
    {p : Page} (spaced : p.spaced = false) :
    ∃ s, p.Adds (writePlain t split indent p) (' ' :: s) ∧ SpellsText indent .plain t s ∧
      (writePlain t split indent p).Filled := by
  rw [writePlain, if_neg (by simpa using nonempty), spaced]
  obtain ⟨s, adds, laid, filled⟩ := plainRuns_laid split indent (isRun_of_mem_runs (s := t))
    (p := { p.put [' '] with spaced := false, bare := false }) ⟨rfl, rfl⟩
  exact ⟨s, Page.Adds.trans (q := { p.put [' '] with spaced := false, bare := false }) rfl adds,
    laid, filled⟩

theorem styleOf_plain {text : String} {isKey : Bool} (style : styleOf text isKey = .plain) :
    plainTag text = standard "str" ∧ text.toList ≠ [] ∧ allowsPlain text.toList = true := by
  rw [styleOf] at style
  split at style
  · rename_i plain
    simp only [Bool.and_eq_true, beq_iff_eq] at plain
    obtain ⟨⟨tag, allowed⟩, -⟩ := plain
    refine ⟨tag, fun empty => ?_, allowed⟩
    rw [String.toList_eq_nil_iff.mp empty] at tag
    revert tag
    decide
  · split at style <;> cases style

theorem styleOf_single {text : String} {isKey : Bool} (style : styleOf text isKey = .single) :
    allowsSingleQuotes text.toList = true := by
  rw [styleOf] at style
  split at style
  · cases style
  · split at style
    · rename_i quotable
      rw [Bool.and_eq_true] at quotable
      exact quotable.1
    · cases style

theorem Page.adds_indicator (p : Page) (s : List Char) (spaced bare : Bool) :
    p.Adds (p.indicator s false spaced bare) s := by
  simp [indicator, Adds, put]

/-- A quote before the text and one after it. -/
theorem Page.Adds.quoted {p q : Page} {s : List Char} (quote : Char) (spaced : p.spaced = false)
    (inside : (p.indicator [quote] true false false).Adds q s) :
    p.Adds (q.indicator [quote] false false false) (' ' :: quote :: (s ++ [quote])) ∧
      (q.indicator [quote] false false false).Filled := by
  have opened : p.Adds (p.indicator [quote] true false false) [' ', quote] := by
    rw [Page.indicator, spaced]
    rfl
  exact ⟨(opened.trans inside).trans (Page.adds_indicator q _ _ _), rfl, Bool.and_false _⟩

theorem writeText_spells (text : String) (indent : Nat) (narrow : indent < width) {p : Page}
    (spaced : p.spaced = false) :
    ∃ s, p.Adds (writeText text false indent p) (' ' :: s) ∧
      SpellsText indent (styleOf text false) text.toList s ∧
      (writeText text false indent p).Filled := by
  have bare (quote : Char) : (p.indicator [quote] true false false).bare = false :=
    Bool.and_false _
  rw [writeText]
  cases style : styleOf text false with
  | plain => exact writePlain_spells _ indent (styleOf_plain style).2.1 spaced
  | single =>
    obtain ⟨-, apart⟩ := isChain_runs_single (styleOf_single style)
    obtain ⟨s, adds, laid⟩ := singleRuns_laid (!false) indent true isRun_of_mem_runs apart
      (.inl (bare '\'')) fun _ _ _ => .inl (bare '\'')
    obtain ⟨whole, filled⟩ := adds.quoted '\'' spaced
    exact ⟨_, whole, ⟨s, laid, rfl⟩, filled⟩
  | double =>
    obtain ⟨s, adds, escaped⟩ := doubleFrom_escaped (!false) narrow true true (bare '"')
    obtain ⟨whole, filled⟩ := adds.quoted '"' spaced
    exact ⟨_, whole, ⟨s, escaped, rfl⟩, filled⟩

/-! ### Characters of spellings -/

/-- Only characters that YAML text may hold. -/
def AreAccepted (s : List Char) : Prop := ∀ c ∈ s, isAccepted c = true

theorem areAccepted_append {s t : List Char} :
    AreAccepted (s ++ t) ↔ AreAccepted s ∧ AreAccepted t := List.forall_mem_append

theorem areAccepted_cons {c : Char} {s : List Char} :
    AreAccepted (c :: s) ↔ isAccepted c = true ∧ AreAccepted s := List.forall_mem_cons

theorem areAccepted_newLine (column : Nat) : AreAccepted (newLine column) := by
  refine areAccepted_cons.mpr ⟨by decide, fun c member => ?_⟩
  rw [(List.mem_replicate.mp member).2]
  decide

theorem isAccepted_of_clear {c : Char} (clear : needsEscape c = false) : isAccepted c = true := by
  simp only [needsEscape, Bool.not_eq_false', Bool.or_eq_true, Bool.and_eq_true, beq_iff_eq,
    decide_eq_true_eq, bne_iff_ne] at clear
  simp only [isAccepted, Bool.or_eq_true, Bool.and_eq_true, beq_iff_eq, decide_eq_true_eq]
  rcases clear with ((((rfl | range) | next) | range) | range) | range
  · decide
  all_goals omega

theorem Laid.accepted {spell : RunKind → List Char → List Char} {column : Nat}
    {rs : List (RunKind × List Char)} {s : List Char} (h : Laid spell column rs s)
    (each : ∀ r ∈ rs, AreAccepted (spell r.1 r.2)) : AreAccepted s := by
  induction h with
  | nil => simp [AreAccepted]
  | run kind run later ih =>
    obtain ⟨first, each⟩ := List.forall_mem_cons.mp each
    exact areAccepted_append.mpr ⟨first, ih each⟩
  | folded later ih =>
    exact areAccepted_append.mpr ⟨areAccepted_newLine column, ih (List.forall_mem_cons.mp each).2⟩

theorem areAccepted_singleRun {column : Nat} {run : List Char} (kind : RunKind)
    (accepted : AreAccepted run) : AreAccepted (singleRun column kind run) := by
  cases kind with
  | word =>
    intro c member
    obtain ⟨d, inside, written⟩ := List.mem_flatMap.mp member
    split at written
    · simp only [List.mem_cons, List.not_mem_nil, or_false, or_self] at written
      rw [written]
      decide
    · rw [List.mem_singleton.mp written]
      exact accepted d inside
  | spaces => exact accepted
  | breaks =>
    refine areAccepted_append.mpr ⟨areAccepted_append.mpr ⟨?_, accepted⟩, fun c member => ?_⟩
    · split
      · exact areAccepted_cons.mpr ⟨by decide, by simp [AreAccepted]⟩
      · simp [AreAccepted]
    · rw [(List.mem_replicate.mp member).2]
      decide

theorem isAccepted_hex {width n : Nat} : AreAccepted ((hex width n).map Char.toUpper) := by
  induction width generalizing n with
  | zero => simp [hex, AreAccepted]
  | succ width ih =>
    have table : ∀ d < 16, isAccepted (hexDigit d).toUpper = true := by decide
    rw [hex, List.map_append]
    refine areAccepted_append.mpr ⟨ih, areAccepted_cons.mpr ⟨?_, by simp [AreAccepted]⟩⟩
    exact table _ (Nat.mod_lt n (by decide))

theorem toNat_lt (c : Char) : c.toNat < 0x110000 := by
  have valid := c.valid
  simp only [UInt32.isValidChar, Nat.isValidChar] at valid
  simp only [Char.toNat]
  omega

/-- The letter of an escape by digits tells how many of them there are. -/
theorem escapeText_unnamed {c : Char} (unnamed : escapeNames.lookup c = none) :
    ∃ letter count, (letter, count) ∈ escapeLengths ∧ c.toNat < Nat.pow 16 count ∧
      escapeText c = '\\' :: letter :: (hex count c.toNat).map Char.toUpper := by
  rw [escapeText, unnamed]
  by_cases short : c.toNat < 0x100
  · exact ⟨'x', 2, by decide, short, by simp [short]⟩
  · by_cases middle : c.toNat < 0x10000
    · exact ⟨'u', 4, by decide, middle, by simp [short, middle]⟩
    · exact ⟨'U', 8, by decide, Nat.lt_trans (toNat_lt c) (by decide), by simp [short, middle]⟩

theorem areAccepted_escapeText (c : Char) : AreAccepted (escapeText c) := by
  cases named : escapeNames.lookup c with
  | some name =>
    have table : ∀ pair ∈ escapeNames, isAccepted pair.2 = true := by decide
    obtain ⟨before, after, whole, -⟩ := List.lookup_eq_some_iff.mp named
    have known := table (c, name) (by simp [whole])
    rw [escapeText, named]
    exact areAccepted_cons.mpr ⟨by decide, areAccepted_cons.mpr ⟨known, by simp [AreAccepted]⟩⟩
  | none =>
    have table : ∀ pair ∈ escapeLengths, isAccepted pair.1 = true := by decide
    obtain ⟨letter, count, known, -, text⟩ := escapeText_unnamed named
    have first : isAccepted letter = true := table (letter, count) known
    rw [text]
    exact areAccepted_cons.mpr ⟨by decide, areAccepted_cons.mpr ⟨first, isAccepted_hex⟩⟩

theorem isAccepted_of_literal {c : Char} (stands : isLiteral c = true) : isAccepted c = true := by
  simp only [isLiteral, Bool.and_eq_true, Bool.or_eq_true, decide_eq_true_eq] at stands
  simp only [isAccepted, Bool.or_eq_true, Bool.and_eq_true, beq_iff_eq, decide_eq_true_eq]
  omega

theorem Escaped.accepted {column : Nat} {t s : List Char} (h : Escaped column t s) :
    AreAccepted s := by
  induction h with
  | nil => simp [AreAccepted]
  | blank _ ih => exact areAccepted_cons.mpr ⟨by decide, ih⟩
  | literal _ stands _ ih => exact areAccepted_cons.mpr ⟨isAccepted_of_literal stands, ih⟩
  | escape _ _ ih => exact areAccepted_append.mpr ⟨areAccepted_escapeText _, ih⟩
  | escapedBlank _ ih =>
    exact areAccepted_cons.mpr ⟨by decide, areAccepted_cons.mpr ⟨by decide, ih⟩⟩
  | joined _ _ ih =>
    exact areAccepted_cons.mpr ⟨by decide, areAccepted_append.mpr ⟨areAccepted_newLine _, ih⟩⟩

/-- A text that stands in a style that can hold it. -/
def Fits (style : Style) (t : List Char) : Prop :=
  match style with
  | .plain => t ≠ [] ∧ allowsPlain t = true
  | .single => allowsSingleQuotes t = true
  | .double => True

theorem fits_styleOf (text : String) (isKey : Bool) : Fits (styleOf text isKey) text.toList := by
  cases style : styleOf text isKey with
  | plain => exact (styleOf_plain style).2
  | single => exact styleOf_single style
  | double => trivial

theorem SpellsText.accepted {column : Nat} {style : Style} {t s : List Char} (fits : Fits style t)
    (spells : SpellsText column style t s) : AreAccepted s := by
  have whole (clear : ∀ c ∈ t, needsEscape c = false) :
      ∀ r ∈ runs t, AreAccepted r.2 := by
    intro r member c inside
    refine isAccepted_of_clear (clear c ?_)
    rw [← flatten_runs t]
    exact List.mem_flatMap.mpr ⟨r, member, inside⟩
  cases style with
  | plain => exact Laid.accepted spells (whole (areWords_plain fits.1 fits.2).2.1)
  | single =>
    obtain ⟨inner, laid, rfl⟩ := spells
    have inside := laid.accepted fun r member => areAccepted_singleRun r.1
      (whole (isChain_runs_single fits).1 r member)
    exact areAccepted_cons.mpr ⟨by decide, areAccepted_append.mpr ⟨inside, by
      simp [AreAccepted, isAccepted]⟩⟩
  | double =>
    obtain ⟨inner, escaped, rfl⟩ := spells
    exact areAccepted_cons.mpr ⟨by decide, areAccepted_append.mpr ⟨escaped.accepted, by
      simp [AreAccepted, isAccepted]⟩⟩

end SessionPlan.Yaml
