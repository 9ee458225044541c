import Mathlib.Data.List.Chain
import SessionPlan.Yaml.Writer

/-! The runs that a text is cut into before it is written, and what the style of a text says about
them. A plain text is words with spaces between them; in a text that single quotes may hold, a word
stands between spaces and breaks. -/
namespace SessionPlan.Yaml

/-! ### Characters -/

theorem runKind_spaces {c : Char} : runKind c = .spaces ↔ c = ' ' := by
  unfold runKind
  split
  · simp_all
  · split <;> simp_all

theorem runKind_breaks {c : Char} : runKind c = .breaks ↔ isTextBreak c = true := by
  unfold runKind
  split
  · rename_i space
    simp [space, isTextBreak]
  · split <;> simp_all

theorem runKind_word {c : Char} : runKind c = .word ↔ c ≠ ' ' ∧ isTextBreak c = false := by
  unfold runKind
  split
  · simp_all
  · split <;> simp_all

/-- A character that is neither a space nor a break nor needs an escape does not end a word. -/
theorem endsWord_of_word {c : Char} (word : runKind c = .word) (clear : needsEscape c = false) :
    endsWord c = false := by
  obtain ⟨solid, unbroken⟩ := runKind_word.mp word
  have tab : c ≠ '\t' := by rintro rfl; revert clear; decide
  have zero : c ≠ '\x00' := by rintro rfl; revert clear; decide
  have return_ : c ≠ '\r' := by rintro rfl; revert clear; decide
  simp only [isTextBreak, Bool.or_eq_false_iff, beq_eq_false_iff_ne] at unbroken
  simp [endsWord, endsLineOrSpace, endsLine, isBreak, solid, unbroken, tab, zero, return_]

/-! ### Cutting a text -/

/-- A run and the kind of its characters. -/
def IsRun (r : RunKind × List Char) : Prop := r.2 ≠ [] ∧ ∀ c ∈ r.2, runKind c = r.1

/-- The first run is of the kind of the first character. -/
theorem runs_cons (c : Char) (s : List Char) :
    ∃ run others, runs (c :: s) = (runKind c, c :: run) :: others ∧
      (runs s = (runKind c, run) :: others ∨ run = [] ∧ runs s = others ∧
        ∀ r ∈ others.head?, r.1 ≠ runKind c) := by
  rw [runs]
  split
  · rename_i kind run others cut
    split
    · rename_i same
      subst same
      exact ⟨run, others, rfl, .inl cut⟩
    · rename_i other
      refine ⟨[], (kind, run) :: others, rfl, .inr ⟨rfl, cut, ?_⟩⟩
      rintro r ⟨⟩
      exact other
  · rename_i nothing
    exact ⟨[], [], rfl, .inr ⟨rfl, nothing, by simp⟩⟩

theorem runs_joined {c : Char} {s run : List Char} {others : List (RunKind × List Char)}
    (cut : runs s = (runKind c, run) :: others) :
    runs (c :: s) = (runKind c, c :: run) :: others := by
  rw [runs, cut]
  exact if_pos rfl

theorem runs_apart {c : Char} {s : List Char} {r : RunKind × List Char}
    {others : List (RunKind × List Char)} (cut : runs s = r :: others) (other : r.1 ≠ runKind c) :
    runs (c :: s) = (runKind c, [c]) :: r :: others := by
  rw [runs, cut]
  exact if_neg other

theorem flatten_runs (s : List Char) : (runs s).flatMap (·.2) = s := by
  induction s with
  | nil => rfl
  | cons c s ih =>
    obtain ⟨run, others, cut, more | ⟨rfl, more, -⟩⟩ := runs_cons c s
    · rw [more, List.flatMap_cons] at ih
      rw [cut, List.flatMap_cons, List.cons_append, ih]
    · rw [more] at ih
      rw [cut, List.flatMap_cons, ih, List.singleton_append]

theorem isRun_of_mem_runs {s : List Char} : ∀ r ∈ runs s, IsRun r := by
  induction s with
  | nil => simp [runs]
  | cons c s ih =>
    obtain ⟨run, others, cut, more | ⟨rfl, more, -⟩⟩ := runs_cons c s
    · rw [more] at ih
      rw [cut]
      refine List.forall_mem_cons.mpr ⟨⟨List.cons_ne_nil c run, ?_⟩, (List.forall_mem_cons.mp ih).2⟩
      exact List.forall_mem_cons.mpr ⟨rfl, (ih _ List.mem_cons_self).2⟩
    · rw [more] at ih
      rw [cut]
      exact List.forall_mem_cons.mpr ⟨⟨List.cons_ne_nil c [], by simp⟩, ih⟩

/-- Runs that follow one another are of different kinds, and where the characters that follow one
another are in a relation the kinds of the runs are too. -/
theorem isChain_runs {R : RunKind → RunKind → Prop} {s : List Char}
    (pairs : s.IsChain fun c d => R (runKind c) (runKind d)) :
    (runs s).IsChain fun a b => a.1 ≠ b.1 ∧ R a.1 b.1 := by
  induction s with
  | nil => exact .nil
  | cons c s ih =>
    have later := ih pairs.tail
    obtain ⟨run, others, cut, more | ⟨rfl, more, other⟩⟩ := runs_cons c s
    · rw [more] at later
      rw [cut]
      cases others with
      | nil => exact .singleton _
      | cons r others =>
        rw [List.isChain_cons_cons] at later ⊢
        exact later
    · rw [more] at later
      rw [cut]
      cases others with
      | nil => exact .singleton _
      | cons r others =>
        refine List.isChain_cons_cons.mpr ⟨⟨(other r rfl).symm, ?_⟩, later⟩
        cases s with
        | nil => cases more
        | cons d s =>
          obtain ⟨run', others', cut', -⟩ := runs_cons d s
          rw [cut'] at more
          cases more
          exact (List.isChain_cons_cons.mp pairs).1

/-! ### Words -/

/-- A word of a plain text: it is read up to its end, where no colon stands. -/
structure IsWord (w : List Char) : Prop where
  ne_nil : w ≠ []
  solid : ∀ c ∈ w, endsWord c = false
  uncoloned : w.getLast? ≠ some ':'

/-- Words with spaces between them. Only the first one may begin with a sharp. -/
inductive AreWords : List (RunKind × List Char) → Prop
  | last {w : List Char} (word : IsWord w) : AreWords [(.word, w)]
  | more {w spaces v : List Char} {rest : List (RunKind × List Char)} (word : IsWord w)
      (gap : spaces ≠ [] ∧ ∀ c ∈ spaces, c = ' ') (uncommented : v.head? ≠ some '#')
      (later : AreWords ((.word, v) :: rest)) :
    AreWords ((.word, w) :: (.spaces, spaces) :: (.word, v) :: rest)

theorem IsWord.cons {c : Char} {w : List Char} (word : IsWord w) (solid : endsWord c = false) :
    IsWord (c :: w) := by
  obtain ⟨ne_nil, rest, uncoloned⟩ := word
  refine ⟨List.cons_ne_nil c w, List.forall_mem_cons.mpr ⟨solid, rest⟩, ?_⟩
  rwa [List.getLast?_cons, List.getLast?_eq_some_getLast ne_nil, Option.getD_some,
    ← List.getLast?_eq_some_getLast ne_nil]

theorem AreWords.cons {c : Char} {w : List Char} {rest : List (RunKind × List Char)}
    (words : AreWords ((.word, w) :: rest)) (solid : endsWord c = false) :
    AreWords ((.word, c :: w) :: rest) := by
  cases words with
  | last word => exact .last (word.cons solid)
  | more word gap uncommented later => exact .more (word.cons solid) gap uncommented later

/-- The runs of a text that begins with the character: words, or spaces and then words. -/
inductive Worded : Char → List (RunKind × List Char) → Prop
  | word {c : Char} {w : List Char} {rest : List (RunKind × List Char)}
      (words : AreWords ((.word, c :: w) :: rest)) : Worded c ((.word, c :: w) :: rest)
  | spaces {spaces w : List Char} {rest : List (RunKind × List Char)}
      (blank : ∀ c ∈ spaces, c = ' ') (words : AreWords ((.word, w) :: rest))
      (uncommented : w.head? ≠ some '#') : Worded ' ' ((.spaces, ' ' :: spaces) :: (.word, w) :: rest)

theorem Worded.cons_space {d : Char} {s : List Char} (h : Worded d (runs s)) (uncommented : d ≠ '#') :
    Worded ' ' (runs (' ' :: s)) := by
  have kind : runKind ' ' = .spaces := by decide
  generalize cut : runs s = rs at h
  cases h with
  | word words =>
    rw [runs_apart cut (by rw [kind]; simp), kind]
    exact .spaces (by simp) words (by simpa using uncommented)
  | spaces blank words sharp =>
    rw [← kind] at cut
    rw [runs_joined cut, kind]
    exact .spaces (List.forall_mem_cons.mpr ⟨rfl, blank⟩) words sharp

/-- A colon may not stand before a space, where it would end its word. -/
theorem Worded.cons_word {c d : Char} {s : List Char} (h : Worded d (runs s))
    (kind : runKind c = .word) (solid : endsWord c = false) (uncoloned : d = ' ' → c ≠ ':') :
    Worded c (runs (c :: s)) := by
  generalize cut : runs s = rs at h
  cases h with
  | word words =>
    rw [← kind] at cut
    rw [runs_joined cut, kind]
    exact .word (words.cons solid)
  | spaces blank words sharp =>
    have one : IsWord [c] := ⟨by simp, by simpa using solid, by simpa using uncoloned rfl⟩
    rw [runs_apart cut (by rw [kind]; simp), kind]
    exact .word (.more one ⟨by simp, List.forall_mem_cons.mpr ⟨rfl, blank⟩⟩ sharp words)

/-- What is between spaces, breaks and indicators is words. -/
theorem worded_runs {previous c : Char} {s : List Char}
    (clear : ∀ d ∈ c :: s, isTextBreak d = false ∧ needsEscape d = false)
    (plain : holdsIndicator previous (c :: s) = false) (last : (c :: s).getLast? ≠ some ' ') :
    Worded c (runs (c :: s)) := by
  induction s generalizing previous c with
  | nil =>
    have first := clear c List.mem_cons_self
    have kind : runKind c = .word := runKind_word.mpr ⟨by rintro rfl; exact last rfl, first.1⟩
    simp only [holdsIndicator, Bool.or_eq_false_iff, Bool.and_eq_false_iff,
      beq_eq_false_iff_ne] at plain
    rw [runs, runs, kind]
    refine .word (.last ⟨by simp, by simpa using endsWord_of_word kind first.2, ?_⟩)
    simpa using plain.1.1.resolve_right (by decide)
  | cons d s ih =>
    obtain ⟨first, others⟩ := List.forall_mem_cons.mp clear
    rw [holdsIndicator] at plain
    simp only [Bool.or_eq_false_iff, Bool.and_eq_false_iff, beq_eq_false_iff_ne] at plain
    obtain ⟨⟨uncoloned, -⟩, plain⟩ := plain
    have later := ih others plain (by simpa using last)
    by_cases space : c = ' '
    · subst space
      refine later.cons_space ?_
      rintro rfl
      simp [holdsIndicator, show endsWord ' ' = true by decide] at plain
    · have kind : runKind c = .word := runKind_word.mpr ⟨space, first.1⟩
      refine later.cons_word kind (endsWord_of_word kind first.2) ?_
      rintro rfl
      refine uncoloned.resolve_right ?_
      rw [List.headD_cons]
      decide

/-! ### What a style says -/

theorem holdsPair_eq_false {p q : Char → Bool} {s : List Char} (h : holdsPair p q s = false) :
    s.IsChain fun c d => ¬(p c = true ∧ q d = true) := by
  induction s with
  | nil => exact .nil
  | cons c s ih =>
    cases s with
    | nil => exact .singleton c
    | cons d s =>
      rw [holdsPair, Bool.or_eq_false_iff] at h
      refine List.isChain_cons_cons.mpr ⟨?_, ih h.2⟩
      simpa using h.1

/-- A text that single quotes may hold has no character that only an escape can write, and around
its runs of spaces and of breaks there are words. -/
theorem isChain_runs_single {s : List Char} (allowed : allowsSingleQuotes s = true) :
    (∀ c ∈ s, needsEscape c = false) ∧
      (runs s).IsChain fun a b => a.1 ≠ b.1 ∧ (a.1 = .word ∨ b.1 = .word) := by
  simp only [allowsSingleQuotes, Bool.not_eq_true', Bool.or_eq_false_iff, List.any_eq_false,
    Bool.not_eq_true] at allowed
  obtain ⟨⟨after, before⟩, clear⟩ := allowed
  refine ⟨clear, (isChain_runs (R := fun a b => a ≠ b → a = .word ∨ b = .word) ?_).imp
    fun a b h => ⟨h.1, h.2 h.1⟩⟩
  refine List.isChain_iff_getElem.mpr fun i inside other => ?_
  have unspaced := (holdsPair_eq_false after).getElem i inside
  have unbroken := (holdsPair_eq_false before).getElem i inside
  simp only [beq_iff_eq, ← runKind_spaces, ← runKind_breaks] at unspaced unbroken
  cases first : runKind s[i] <;> cases second : runKind s[i + 1] <;> simp_all

/-- How a plain text begins. -/
structure PlainHead (c : Char) (rest : List Char) : Prop where
  solid : endsWord c = false
  unmarked : isLeadingIndicator c = false
  followed : c = '?' ∨ c = ':' ∨ c = '-' → endsWord (rest.headD ' ') = false

theorem areWords_plain {s : List Char} (nonempty : s ≠ []) (allowed : allowsPlain s = true) :
    AreWords (runs s) ∧ (∀ c ∈ s, needsEscape c = false) ∧
      ∃ c rest, s = c :: rest ∧ PlainHead c rest := by
  cases s with
  | nil => exact absurd rfl nonempty
  | cons c rest =>
    simp only [allowsPlain, Bool.not_eq_true', Bool.or_eq_false_iff, List.any_eq_false,
      Bool.not_eq_true, holdsBlockIndicator, List.head?_cons, Option.any_some] at allowed
    obtain ⟨⟨⟨⟨first, last⟩, unbroken⟩, clear⟩, ⟨⟨-, unmarked⟩, followed⟩, plain⟩ := allowed
    simp only [isSpaceOrBreak, Bool.or_eq_false_iff, beq_eq_false_iff_ne] at first
    have word : runKind c = .word := runKind_word.mpr first
    have solid := endsWord_of_word word (clear c List.mem_cons_self)
    have opens : c = '?' ∨ c = ':' ∨ c = '-' → endsWord (rest.headD ' ') = false := by
      intro indicator
      simpa [or_assoc, indicator] using followed
    have whole : holdsIndicator c (c :: rest) = false := by
      have sharp : c ≠ '#' := by rintro rfl; revert unmarked; decide
      have coloned : ¬(c = ':' ∧ endsWord (rest.headD ' ') = true) := fun h =>
        Bool.false_ne_true ((opens (.inr (.inl h.1))).symm.trans h.2)
      simpa [holdsIndicator, sharp, plain] using coloned
    refine ⟨?_, clear, c, rest, rfl, solid, unmarked, opens⟩
    have ended : (c :: rest).getLast? ≠ some ' ' := by
      intro space
      rw [space] at last
      revert last
      decide
    have worded := worded_runs (fun d member => ⟨unbroken d member, clear d member⟩) whole ended
    generalize runs (c :: rest) = rs at worded
    cases worded with
    | word words => exact words
    | spaces => exact absurd rfl first.1

end SessionPlan.Yaml
