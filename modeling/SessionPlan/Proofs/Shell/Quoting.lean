import SessionPlan.Shell
import Mathlib.Data.List.Basic

/-! Quoting is undone by reading. Whatever the words of a line hold, the reader finds the same words
in it: none is broken up, joined to another or lost. -/
namespace SessionPlan.Shell
open SessionPlan.Text

/-- A character that means nothing to a shell neither ends a word nor changes how it is read. -/
theorem isSafe_plain {c : Char} (safe : isSafe c = true) :
    separates c = false ∧ c ≠ '\\' ∧ c ≠ '\'' ∧ c ≠ '"' := by
  refine ⟨?_, ?_, ?_, ?_⟩
  · by_contra separator
    simp only [separates, Bool.not_eq_false, Bool.or_eq_true, beq_iff_eq] at separator
    rcases separator with ((rfl | rfl) | rfl) | rfl <;> exact absurd safe (by decide)
  all_goals
    rintro rfl
    exact absurd safe (by decide)

theorem step_between_safe {c : Char} (safe : isSafe c = true) :
    step c .between = (.inWord [c], none) := by
  obtain ⟨separator, backslash, single, double⟩ := isSafe_plain safe
  simp [step, separator, backslash, single, double]

theorem step_inWord_safe {c : Char} (safe : isSafe c = true) (word : List Char) :
    step c (.inWord word) = (.inWord (c :: word), none) := by
  obtain ⟨separator, backslash, single, double⟩ := isSafe_plain safe
  simp [step, separator, backslash, single, double]

/-- Inside a word, safe characters are added to it. -/
theorem words_inWord_safe {s : List Char} (safe : ∀ c ∈ s, isSafe c = true)
    (word rest : List Char) :
    words (.inWord word) (s ++ rest) = words (.inWord (s.reverse ++ word)) rest := by
  induction s generalizing word with
  | nil => rfl
  | cons c s ih =>
    have later := ih (fun d member => safe d (List.mem_cons_of_mem _ member)) (c :: word)
    rw [List.cons_append, words, step_inWord_safe (safe c List.mem_cons_self)]
    simpa using later

/-- A character as it stands between single quotes: only a single quote has to leave them. -/
def quotedChar (c : Char) : List Char := if c = '\'' then "'\"'\"'".toList else [c]

/-- Between single quotes, a quoted text adds its characters to the word. -/
theorem words_inSingle_quoted (s word rest : List Char) :
    words (.inSingle word) (s.flatMap quotedChar ++ rest) =
      words (.inSingle (s.reverse ++ word)) rest := by
  induction s generalizing word with
  | nil => rfl
  | cons c s ih =>
    have later := ih (c :: word)
    rw [List.reverse_cons, List.append_assoc, List.singleton_append, ← later]
    by_cases single : c = '\''
    · -- the word goes on through the end of the quotes, a double-quoted mark and a new beginning
      subst single
      rfl
    · simp [quotedChar, words, step, single]

/-- A quoted text is read as one word, which goes on until a separator comes. -/
theorem words_quoteList (s rest : List Char) :
    words .between (quoteList s ++ rest) = words (.inWord s.reverse) rest := by
  unfold quoteList
  split
  · rename_i empty
    rw [List.isEmpty_iff.mp empty]
    rfl
  · split
    · rename_i some_char safe
      obtain ⟨c, tail, rfl⟩ := List.exists_cons_of_ne_nil (by simpa using some_char : s ≠ [])
      have plain := List.all_eq_true.mp safe
      have inside := words_inWord_safe
        (fun d member => plain d (List.mem_cons_of_mem _ member)) [c] rest
      rw [List.cons_append, words, step_between_safe (plain c List.mem_cons_self)]
      simpa using inside
    · have inside := words_inSingle_quoted s [] ('\'' :: rest)
      rw [List.append_nil] at inside
      rw [List.cons_append, List.cons_append, List.append_assoc]
      exact inside

theorem words_separated (word : List Char) (rest : List Char) :
    words (.inWord word) (' ' :: rest) = (words .between rest).map (word.reverse :: ·) := by
  have ended : step ' ' (.inWord word) = (.between, some word.reverse) := rfl
  simp only [words, ended]
  cases words .between rest <;> rfl

/-- A line of quoted words is read as these words. -/
theorem words_intercalate (args : List (List Char)) :
    words .between ([' '].intercalate (args.map quoteList)) = .ok args := by
  match args with
  | [] => rfl
  | [word] =>
    have last := words_quoteList word []
    rw [List.append_nil] at last
    simp only [List.map_cons, List.map_nil, List.intercalate_singleton, last]
    simp [words]
  | word :: next :: further =>
    have later := words_intercalate (next :: further)
    rw [List.map_cons] at later
    rw [List.map_cons, List.map_cons, List.intercalate_cons_cons, List.append_assoc,
      words_quoteList, List.singleton_append, words_separated, later]
    simp [Except.map]

/-- Splitting a line gives back the words that it was joined from. -/
theorem split_joinWords (args : List String) : split (joinWords args) = .ok args := by
  have line : (joinWords args).toList =
      [' '].intercalate ((args.map String.toList).map quoteList) := by
    have quoted : (args.map quote).map String.toList =
        (args.map String.toList).map quoteList := by
      simp [quote, Function.comp_def]
    rw [joinWords, join, String.toList_intercalate, quoted]
    rfl
  rw [split, line, words_intercalate]
  simp [Except.map, Function.comp_def]

end SessionPlan.Shell
