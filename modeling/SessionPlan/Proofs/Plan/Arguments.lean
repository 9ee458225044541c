import SessionPlan.Proofs.Plan.Refusal

/-! Which words call the multiplexer, and whether the first of them can be the name of a program. It
can, unless the command line is blank or begins with quotes that enclose nothing. -/
namespace SessionPlan

namespace Shell

/-! ### The first word of a line -/

/-- A word is under way that has a character already, or gets one with the escape. -/
def State.HasBegun : State → Prop
  | .between => False
  | .inWord word | .inSingle word | .inDouble word => word ≠ []
  | .escaped _ | .escapedInDouble _ => True

/-- The first word is there and not empty. -/
def Named (words : List (List Char)) : Prop := ∃ first rest, words = first :: rest ∧ first ≠ []

/-- A word that has begun goes on, or it is ended as it is. -/
theorem step_begun {s : State} (begun : s.HasBegun) (c : Char) :
    ((step c s).1.HasBegun ∧ (step c s).2 = none) ∨
      ∃ word, word ≠ [] ∧ step c s = (.between, some word) := by
  cases s with
  | between => exact begun.elim
  | inWord word =>
    by_cases ends : separates c = true
    · exact .inr ⟨word.reverse, mt List.reverse_eq_nil_iff.mp begun, by rw [step, if_pos ends]⟩
    · rw [step, if_neg ends]
      split_ifs
      · exact .inl ⟨trivial, rfl⟩
      · exact .inl ⟨begun, rfl⟩
      · exact .inl ⟨begun, rfl⟩
      · exact .inl ⟨List.cons_ne_nil c word, rfl⟩
  | inSingle word =>
    rw [step]
    split_ifs
    · exact .inl ⟨begun, rfl⟩
    · exact .inl ⟨List.cons_ne_nil c word, rfl⟩
  | inDouble word =>
    rw [step]
    split_ifs
    · exact .inl ⟨begun, rfl⟩
    · exact .inl ⟨trivial, rfl⟩
    · exact .inl ⟨List.cons_ne_nil c word, rfl⟩
  | escaped word => exact .inl ⟨List.cons_ne_nil c word, rfl⟩
  | escapedInDouble word =>
    rw [step]
    split_ifs
    · exact .inl ⟨List.cons_ne_nil c word, rfl⟩
    · exact .inl ⟨List.cons_ne_nil c _, rfl⟩

theorem words_of_step {s : State} {c : Char} (goes_on : (step c s).2 = none) (rest : List Char) :
    words s (c :: rest) = words (step c s).1 rest := by
  have next : step c s = ((step c s).1, none) := Prod.ext rfl goes_on
  rw [words, next]

/-- Whatever follows, a word that has begun is the first that is read, and it is not empty. -/
theorem named_of_begun {s : State} {line : List Char} {found : List (List Char)}
    (begun : s.HasBegun) (read : words s line = .ok found) : Named found := by
  induction line generalizing s with
  | nil =>
    cases s with
    | between => exact begun.elim
    | inWord word =>
      cases read
      exact ⟨word.reverse, [], rfl, mt List.reverse_eq_nil_iff.mp begun⟩
    | _ => cases read
  | cons c rest ih =>
    rcases step_begun begun c with ⟨further, goes_on⟩ | ⟨word, filled, ended⟩
    · rw [words_of_step goes_on] at read
      exact ih further read
    · rw [words, ended] at read
      obtain ⟨later, -, eq⟩ := bind_eq_ok.mp read
      cases eq
      exact ⟨word, later, rfl, filled⟩

/-- Pairs of quotes with nothing between them, up to a separator or the end of the line. -/
inductive EncloseNothing : List Char → Prop
  | ended : EncloseNothing []
  | separated {c : Char} {rest : List Char} (ends : separates c = true) : EncloseNothing (c :: rest)
  | single {rest : List Char} (more : EncloseNothing rest) : EncloseNothing ('\'' :: '\'' :: rest)
  | double {rest : List Char} (more : EncloseNothing rest) : EncloseNothing ('"' :: '"' :: rest)

/-- A line that names nothing: it is blank, or its first word is empty. -/
def Nameless (line : String) : Prop := EncloseNothing (line.toList.dropWhile separates)

theorem not_named_of_encloseNothing {line : List Char} {found : List (List Char)}
    (nothing : EncloseNothing line) (read : words (.inWord []) line = .ok found) :
    ¬ Named found := by
  rintro ⟨first, rest, rfl, filled⟩
  induction nothing with
  | ended =>
    cases read
    exact filled rfl
  | separated ends =>
    rw [words, step, if_pos ends] at read
    obtain ⟨later, -, eq⟩ := bind_eq_ok.mp read
    cases eq
    exact filled rfl
  | single _ ih => exact ih read
  | double _ ih => exact ih read

/-- Once a quote is open, it is closed at once or a word begins in it. -/
theorem closed_or_named {quote : State} {close : Char}
    (closes : step close quote = (.inWord [], none))
    (begins : ∀ c, c ≠ close → (step c quote).1.HasBegun ∧ (step c quote).2 = none)
    {c : Char} {rest : List Char} {found : List (List Char)}
    (read : words quote (c :: rest) = .ok found) :
    c = close ∧ words (.inWord []) rest = .ok found ∨ Named found := by
  by_cases closed : c = close
  · subst closed
    rw [words, closes] at read
    exact .inl ⟨rfl, read⟩
  · obtain ⟨begun, goes_on⟩ := begins c closed
    rw [words_of_step goes_on] at read
    exact .inr (named_of_begun begun read)

theorem begins_inSingle (c : Char) (other : c ≠ '\'') :
    (step c (.inSingle [])).1.HasBegun ∧ (step c (.inSingle [])).2 = none := by
  rw [step, if_neg other]
  exact ⟨List.cons_ne_nil c [], rfl⟩

theorem begins_inDouble (c : Char) (other : c ≠ '"') :
    (step c (.inDouble [])).1.HasBegun ∧ (step c (.inDouble [])).2 = none := by
  rw [step, if_neg other]
  split_ifs
  · exact ⟨trivial, rfl⟩
  · exact ⟨List.cons_ne_nil c [], rfl⟩

/-- In front of a word only pairs of quotes can add nothing to it. -/
theorem encloseNothing_or_named : ∀ {line : List Char} {found : List (List Char)},
    words (.inWord []) line = .ok found → EncloseNothing line ∨ Named found
  | [], _, _ => .inl .ended
  | [c], found, read => by
    rw [words, step] at read
    split_ifs at read with ends
    · exact .inl (.separated ends)
    · cases read
    · cases read
    · cases read
    · exact .inr (named_of_begun (s := .inWord [c]) (List.cons_ne_nil c []) read)
  | c :: d :: rest, found, read => by
    rw [words, step] at read
    split_ifs at read with ends backslash single double
    · exact .inl (.separated ends)
    · exact .inr (named_of_begun (s := .escaped []) trivial read)
    · rcases closed_or_named rfl begins_inSingle read with ⟨rfl, read⟩ | named
      · rw [single]
        exact (encloseNothing_or_named read).imp_left .single
      · exact .inr named
    · rcases closed_or_named rfl begins_inDouble read with ⟨rfl, read⟩ | named
      · rw [double]
        exact (encloseNothing_or_named read).imp_left .double
      · exact .inr named
    · exact .inr (named_of_begun (s := .inWord [c]) (List.cons_ne_nil c []) read)

theorem words_dropWhile (line : List Char) :
    words .between (line.dropWhile separates) = words .between line := by
  induction line with
  | nil => rfl
  | cons c rest ih =>
    by_cases separator : separates c = true
    · rw [List.dropWhile_cons_of_pos separator, ih, words, step, if_pos separator]
    · rw [List.dropWhile_cons_of_neg separator]

/-- Up to its first separator, a line is read as if a word had been under way. -/
theorem words_between_eq {c : Char} (character : ¬ separates c = true) (rest : List Char) :
    words .between (c :: rest) = words (.inWord []) (c :: rest) := by
  have same : step c .between = step c (.inWord []) := by simp only [step, if_neg character]
  rw [words, words, same]

theorem named_iff {line : String} {found : List (List Char)}
    (read : words .between line.toList = .ok found) : Named found ↔ ¬ Nameless line := by
  rw [← words_dropWhile] at read
  unfold Nameless
  cases start : line.toList.dropWhile separates with
  | nil =>
    rw [start] at read
    cases read
    simp [Named, EncloseNothing.ended]
  | cons c rest =>
    have character : ¬ separates c = true := by
      have first := List.head_dropWhile_not separates (l := line.toList) (by simp [start])
      simpa [start] using first
    rw [start, words_between_eq character] at read
    constructor
    · exact fun named nothing => not_named_of_encloseNothing nothing read named
    · exact fun some => (encloseNothing_or_named read).resolve_left some

/-- A line that can be read begins with the name of a program, just if it is not nameless. -/
theorem split_named_iff {line : String} {found : List String} (read : split line = .ok found) :
    (∃ name rest, found = name :: rest ∧ name ≠ "") ↔ ¬ Nameless line := by
  rw [split] at read
  cases done : words .between line.toList with
  | error flaw =>
    rw [done] at read
    cases read
  | ok characters =>
    rw [done] at read
    cases read
    rw [← named_iff done]
    constructor
    · rintro ⟨name, rest, eq, filled⟩
      obtain ⟨first, later, rfl, rfl, -⟩ := List.map_eq_cons_iff.mp eq
      refine ⟨first, later, rfl, ?_⟩
      rintro rfl
      exact filled rfl
    · rintro ⟨first, rest, rfl, filled⟩
      exact ⟨String.ofList first, rest.map String.ofList, rfl, by simpa using filled⟩

end Shell

namespace Project

/-- The command line that is chosen: an override, else the project's own, else the usual one. Empty
texts are passed over. -/
inductive Chooses (p : Project) (override : Option String) : String → Prop
  | override {line : String} (given : override = some line) (filled : line ≠ "") :
    Chooses p override line
  | own {line : String} (passed : ∀ other ∈ override, other = "") (given : p.tmuxCommand = some line)
      (filled : line ≠ "") : Chooses p override line
  | usual (passed : ∀ other ∈ override, other = "") (absent : ∀ line ∈ p.tmuxCommand, line = "") :
    Chooses p override "tmux"

theorem chooses_multiplexer (p : Project) (override : Option String) :
    p.Chooses override (p.multiplexer override) := by
  have own : (∀ other ∈ override, other = "") →
      p.Chooses override ((orNonempty p.tmuxCommand none).getD "tmux") := by
    intro passed
    cases given : p.tmuxCommand with
    | none => exact .usual passed (by simp [given])
    | some line =>
      by_cases empty : line = ""
      · subst empty
        exact .usual passed (by simp [given])
      · simpa [orNonempty, empty] using Chooses.own passed given empty
  cases override with
  | none => exact own (by simp)
  | some line =>
    by_cases empty : line = ""
    · subst empty
      exact own (by simp)
    · simpa [multiplexer, orNonempty, empty] using Chooses.override rfl empty

theorem commandLine_eq_ok {line : String} {words : List String} :
    commandLine line = .ok words ↔ Shell.split line = .ok words := by
  unfold commandLine
  cases Shell.split line <;> simp

/-- The words that call the multiplexer are those of the chosen command line, then the socket's,
then those of the options. There is at least one. The command line gives the first of them, and as
a name that is not empty, just if it is not nameless; otherwise that place is left to an empty word,
the socket's flag or an option. -/
theorem tmuxArguments_named {p : Project} {override : Option String} {args : List String}
    (found : p.tmuxArguments override = .ok args) :
    ∃ line words further, p.Chooses override line ∧ Shell.split line = .ok words ∧
      Shell.split (p.tmuxOptions.getD "") = .ok further ∧
      args = words ++ p.socketWords ++ further ∧ args ≠ [] ∧
      ((∃ name rest, words = name :: rest ∧ name ≠ "") ↔ ¬ Shell.Nameless line) := by
  obtain ⟨words, command, next⟩ := bind_eq_ok.mp found
  obtain ⟨further, options, -⟩ := bind_eq_ok.mp next
  rw [commandLine_eq_ok] at command options
  rw [tmuxArguments_eq command options] at found
  by_cases nothing : words ++ p.socketWords ++ further = []
  · rw [if_pos nothing] at found
    cases found
  · rw [if_neg nothing] at found
    cases found
    exact ⟨p.multiplexer override, words, further, p.chooses_multiplexer override, command, options,
      rfl, nothing, Shell.split_named_iff command⟩

/-- A command with a flag of its own, on a socket, with options. -/
def flaggedProject : Project where
  tmuxCommand := some "tmux -2"
  tmuxSocket := some "work"
  tmuxOptions := some "-f 'my conf'"

theorem tmuxArguments_named_flagged :
    flaggedProject.tmuxArguments none =
      .ok ["tmux", "-2", "-L", "work", "-f", "my conf"] ∧
    ∃ line words further, flaggedProject.Chooses none line ∧ Shell.split line = .ok words ∧
      Shell.split (flaggedProject.tmuxOptions.getD "") = .ok further ∧
      ["tmux", "-2", "-L", "work", "-f", "my conf"] =
        words ++ flaggedProject.socketWords ++ further ∧
      ["tmux", "-2", "-L", "work", "-f", "my conf"] ≠ [] ∧
      ((∃ name rest, words = name :: rest ∧ name ≠ "") ↔ ¬ Shell.Nameless line) := by
  have found : flaggedProject.tmuxArguments none =
      .ok ["tmux", "-2", "-L", "work", "-f", "my conf"] := by rfl
  exact ⟨found, tmuxArguments_named found⟩

/-- A blank command gives no word, and the socket's flag comes first; a command of two quotes gives
an empty word. -/
theorem tmuxArguments_nameless :
    ({ tmuxCommand := some " ", tmuxSocket := some "work" } : Project).tmuxArguments none =
      .ok ["-L", "work"] ∧
    Shell.split " " = .ok [] ∧
    ({ tmuxCommand := some "''" } : Project).tmuxArguments none = .ok [""] :=
  ⟨rfl, rfl, rfl⟩

end Project
end SessionPlan
