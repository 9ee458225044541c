import SessionPlan.Proofs.Settings.FeedLines
import SessionPlan.Proofs.Settings.Loaded
import SessionPlan.Proofs.Settings.Mentioned

/-! What an error of a settings file says about its place. The number that is reported is the first
one that the message mentions, and the line that is shown is looked up among lines that end in more
ways than those that the reader counts. Here is said when both are those of the place where the
reader found the error, and what is told otherwise. -/
namespace SessionPlan.Settings
open SessionPlan.Text

/-- The message that shows `line` as line `n`. -/
def pointing (n : Nat) (line raw : String) : String :=
  "Error on line " ++ ofNat n ++ (": " ++ shownLine line) ++ "\n\nDetails: " ++ raw

theorem shownLine_ne_empty {line : String} (present : line ≠ "") : shownLine line ≠ "" := by
  unfold shownLine
  split
  · exact fun empty => absurd (congrArg String.length empty) (by simp)
  · exact present

/-- A message with a number shows a line just where what was found shows like it. -/
theorem message_eq_pointing {e : ErrorLine} {n : Nat} {line : String} (number : e.number = some n)
    (positive : 0 < n) (present : line ≠ "") :
    e.message = pointing n line e.raw ↔ shownLine (e.content.getD "") = shownLine line := by
  have position : e.position? = some n := by
    rw [ErrorLine.position?, number]
    exact Option.filter_some_pos (by simpa using positive)
  have parts : e.message = "Error on line " ++ ofNat n ++
      ((e.content.filter (!·.isEmpty)).map fun content => ": " ++ shownLine content).getD "" ++
        "\n\nDetails: " ++ e.raw := by
    unfold ErrorLine.message
    rw [position]
  have nothing : shownLine "" = "" := by decide
  have unshown : ¬"" = ": " ++ shownLine line := fun same =>
    absurd (String.append_eq_empty_iff.mp same.symm).1 (by decide)
  have blank : ¬shownLine "" = shownLine line := fun same =>
    shownLine_ne_empty present (same.symm.trans nothing)
  rw [parts]
  unfold pointing
  rw [String.append_left_inj, String.append_left_inj, String.append_right_inj]
  cases e.content with
  | none => exact iff_of_false unshown blank
  | some content =>
    by_cases empty : content = ""
    · rw [empty]
      exact iff_of_false unshown blank
    · have kept : (some content).filter (!·.isEmpty) = some content :=
        Option.filter_some_pos (by simpa using empty)
      rw [kept]
      exact String.append_right_inj _

/-- Line `n` of a text and the lines before it. -/
structure LineAt (text : String) (n : Nat) (earlier : List String) (line : String) : Prop where
  counted : ∃ later, feedLines text = earlier ++ line :: later
  number : earlier.length + 1 = n

theorem pointed_content {text message : String} {n : Nat} (positive : 0 < n)
    (number : (pointed text message).number = some n) :
    (pointed text message).content = lineOf? text n := by
  have mentioned : mentionedLine? message.toList = some n := number
  rw [pointed, mentioned, Option.filter_some_pos (by simpa using positive), Option.bind_some]

/-- What an error is told of a place: its message is `before` with the note of line `n`. -/
structure Told (text before : String) (n column : Nat) (e : ErrorLine) : Prop where
  /-- The number is that of the place unless a line is mentioned before, and another one. -/
  number : e.number = some n ↔ ∀ other, mentionedLine? before.toList = some other → other = n
  /-- After lines without other ends the line is found up to its own first other end. -/
  content : e.number = some n → ∀ earlier line, LineAt text n earlier line →
    (∀ l ∈ earlier, BreakFree l) → e.content.getD "" = stripEnd (firstPiece line)
  /-- So it is shown as it stands in the file just where enough of it is found. -/
  shown : e.number = some n → ∀ earlier line, LineAt text n earlier line →
    (∀ l ∈ earlier, BreakFree l) → isBlankText line = false →
      (e.message = pointing n (stripEnd line) (before ++ placeNote n column) ↔ IsEnough line)
  /-- After a line with another end a piece of an earlier line is found instead. -/
  shifted : e.number = some n → ∀ earlier line, LineAt text n earlier line →
    (∃ l ∈ earlier, ¬BreakFree l) →
      ∃ l ∈ earlier, ∃ piece ∈ endPieces l, e.content = some (stripEnd piece)

theorem told_pointed (text before : String) (n column : Nat) :
    Told text before n column (pointed text (before ++ placeNote n column)) := by
  have content (number : (pointed text (before ++ placeNote n column)).number = some n)
      (earlier : List String) (line : String) (here : LineAt text n earlier line)
      (unbroken : ∀ l ∈ earlier, BreakFree l) :
      (pointed text (before ++ placeNote n column)).content.getD "" =
        stripEnd (firstPiece line) := by
    obtain ⟨⟨later, counted⟩, rfl⟩ := here
    rw [pointed_content (Nat.succ_pos _) number, lineOf?_of_breakFree counted unbroken]
  refine ⟨?number, content, fun number earlier line here unbroken seen => ?shown,
    fun number earlier line here broken => ?shifted⟩
  case number =>
    have mentioned : (pointed text (before ++ placeNote n column)).number =
        (mentionedLine? before.toList).or (some n) := mentionedLine?_placeNote before n column
    rw [mentioned]
    cases mentionedLine? before.toList <;> simp
  case shown =>
    have positive : 0 < n := here.number ▸ Nat.succ_pos _
    refine (message_eq_pointing number positive (stripEnd_ne_empty seen)).trans ?_
    rw [content number earlier line here unbroken]
    exact shownLine_firstPiece line
  case shifted =>
    obtain ⟨⟨later, counted⟩, rfl⟩ := here
    rw [pointed_content (Nat.succ_pos _) number]
    exact lineOf?_of_broken counted broken

/-! ### Errors of the reader -/

/-- Of the characters that end a line in other ways a TOML text may hold three. -/
theorem mem_of_breaksLine {c : Char} (clean : Toml.IsClean c) (ends : breaksLine c = true)
    (feed : c ≠ '\n') : c ∈ ['\x85', '\u2028', '\u2029'] := by
  have high : ¬c.toNat < 0x20 ∨ c = '\t' := by
    by_contra control
    rw [not_or, not_not] at control
    simp [Toml.IsClean, Toml.isControlInLines, Toml.isControl, control, feed] at clean
  have codes : c.toNat = 0x85 ∨ c.toNat = 0x2028 ∨ c.toNat = 0x2029 := by
    rcases high with high | rfl
    · simp only [breaksLine, Bool.or_eq_true, Bool.and_eq_true, decide_eq_true_eq, beq_iff_eq]
        at ends
      omega
    · exact absurd ends (by decide)
  simp only [List.mem_cons, List.not_mem_nil, or_false, ← Char.toNat_inj]
  exact codes

theorem before_flaw {whole : List Char} {e : Toml.Error} (found : e.FoundIn whole)
    (inside : e.rest ≠ []) :
    ∃ s, whole = s ++ e.rest ∧ Toml.AreClean s.dropLast := by
  obtain ended | ⟨front, cut, clean⟩ | ⟨c, front, cut, clean⟩ := found.place
  · exact absurd ended inside
  · exact ⟨front, cut, fun c member => clean c (List.mem_of_mem_dropLast member)⟩
  · refine ⟨front ++ [c], by rw [cut, List.append_assoc, List.singleton_append], ?_⟩
    rwa [List.dropLast_concat]

/-- A message of the reader is that of its error, and no number was too long. -/
theorem message_of_parse {text message : String}
    (flawed : Toml.parse text = .error (.message message)) :
    ∃ e, message = Toml.Error.message (Toml.plainBreaks text.toList) e ∧
      (∀ digits, e.flaw ≠ .overlong digits) ∧ e.FoundIn (Toml.plainBreaks text.toList) := by
  obtain ⟨e, same, found⟩ := Toml.parse_eq_error flawed
  unfold Toml.Error.refusal at same
  split at same
  · cases same
  · rename_i other
    exact ⟨e, Toml.Refusal.message.inj same, other, found⟩

/-- Only where it quotes a key does the reader mention another line before the place. -/
theorem quotesKey_of_flaw {text before : String} {n column : Nat}
    (flawed : Toml.parse text = .error (.message (before ++ placeNote n column)))
    (mentions : mentionedDigits? before.toList ≠ none) :
    ∃ flaw, QuotesKey flaw ∧ before = flaw.words ++ " " := by
  obtain ⟨e, same, short, found⟩ := message_of_parse flawed
  obtain ⟨-, -, words⟩ := message_eq_placeNote same.symm
  refine ⟨e.flaw, ?_, words⟩
  by_contra unquoted
  rw [words] at mentions
  exact mentions (mentionedDigits?_words found.flaw short unquoted)

/-- The reader finds its error in the line that it names, and of the other line ends only three can
stand before this line: those that TOML has for text. -/
theorem lineAt_of_flaw {text before : String} {n column : Nat}
    (flawed : Toml.parse text = .error (.message (before ++ placeNote n column))) :
    ∃ earlier line, LineAt text n earlier line ∧
      ∀ l ∈ earlier, ∀ c ∈ l.toList, breaksLine c = true → c ∈ ['\x85', '\u2028', '\u2029'] := by
  obtain ⟨e, same, -, found⟩ := message_of_parse flawed
  obtain ⟨inside, number, -⟩ := message_eq_placeNote same.symm
  obtain ⟨s, cut, clean⟩ := before_flaw found inside
  obtain ⟨earlier, line, later, pieces, count, within⟩ := splitList_before '\n' s e.rest
  have counted : feedLines text =
      earlier.map String.ofList ++ String.ofList line :: later.map String.ofList := by
    rw [feedLines, split, String.toList_ofList, cut, pieces, List.map_append, List.map_cons]
  rw [cut, List.length_append, Nat.add_sub_cancel, List.take_left, ← count] at number
  refine ⟨_, _, ⟨⟨_, counted⟩, by rw [List.length_map, number]⟩, ?_⟩
  rw [List.forall_mem_map]
  intro piece member c inPiece ends
  rw [String.toList_ofList] at inPiece
  have feed : '\n' ∉ piece :=
    not_mem_of_mem_splitList (pieces ▸ List.mem_append_left _ member)
  exact mem_of_breaksLine (clean c (within piece member c inPiece)) ends
    (ne_of_mem_of_not_mem inPiece feed)

/-- How many digits the number has that is read for the line: the first one that is mentioned before
the place, and else that of the place. -/
def readLength (before : String) (n : Nat) : Nat :=
  ((mentionedDigits? before.toList).getD (Nat.toDigits 10 n)).length

theorem mentionedLength_placeNote (before : String) (n column : Nat) :
    mentionedLength (before ++ placeNote n column) = readLength before n := by
  rw [mentionedLength, mentionedDigits?_placeNote, readLength]
  cases mentionedDigits? before.toList <;> rfl

/-- What is told of a file that can be read, for any message that ends with a place, and what is
reported when the file is no TOML: then another line is mentioned only where a key is quoted, and
no more than three characters put the count of the lines ahead. A number that has too many digits
cannot be read, and nothing is told. -/
theorem errorLine_told {s : Surroundings} {path text : String} {bytes : List UInt8}
    (read : s.read path = .ok bytes) (decoded : Surroundings.decode bytes = .ok text) :
    (∀ before n column,
      (readLength before n ≤ digitLimit →
        ∃ e, errorLine s path (before ++ placeNote n column) = .ok e ∧
          Told text before n column e) ∧
      (digitLimit < readLength before n → errorLine s path (before ++ placeNote n column) =
        .error (.fault (.unreadable (readLength before n))))) ∧
    ∀ before n column, Toml.parse text = .error (.message (before ++ placeNote n column)) →
      (mentionedDigits? before.toList ≠ none →
        ∃ flaw, QuotesKey flaw ∧ before = flaw.words ++ " ") ∧
      (∃ earlier line, LineAt text n earlier line ∧ ∀ l ∈ earlier, ∀ c ∈ l.toList,
        breaksLine c = true → c ∈ ['\x85', '\u2028', '\u2029']) ∧
      (readLength before n ≤ digitLimit →
        ∃ e, (loadFrom s path).result = .error (.issue (syntaxIssue path e)) ∧
          Told text before n column e) ∧
      (digitLimit < readLength before n → (loadFrom s path).result =
        .error (.failure (.fault (.unreadable (readLength before n))))) := by
  refine ⟨fun before n column => ?_, fun before n column flawed =>
    ⟨quotesKey_of_flaw flawed, lineAt_of_flaw flawed, ?_⟩⟩
  all_goals rw [← mentionedLength_placeNote before n column]
  · exact ⟨fun few => ⟨_, errorLine_of_read read decoded few, told_pointed ..⟩,
      errorLine_overlong s path⟩
  · exact ⟨fun few => ⟨_, loadFrom_of_flaw read decoded flawed few, told_pointed ..⟩,
      loadFrom_of_mention read decoded flawed⟩

/-- A machine with a settings file of this text. -/
def textMachine (text : String) : Surroundings where
  environ := [("HOME", "/home/ann")]
  directory := "/home/ann"
  files := [("s.toml", .bytes text.toUTF8.toList)]

/-- A value is missing in the third line, where a line ends in two characters. -/
def unvalued : String := "# settings\r\n[tmux]\r\ncommand = \r\n"

theorem errorLine_told_unvalued : ∃ e,
    (loadFrom (textMachine unvalued) "s.toml").result =
      .error (.issue (syntaxIssue "s.toml" e)) ∧ e.number = some 3 ∧
    e.message = pointing 3 "command =" "Invalid value (at line 3, column 11)" := by
  have read : (textMachine unvalued).read "s.toml" = .ok unvalued.toUTF8.toList :=
    eq_ok_of_toOption (by decide +kernel)
  have decoded : Surroundings.decode unvalued.toUTF8.toList = .ok unvalued :=
    eq_ok_of_toOption (by decide +kernel)
  have flawed : Toml.parse unvalued = .error (.message ("Invalid value " ++ placeNote 3 11)) :=
    eq_error_of_error? (by decide +kernel)
  have here : LineAt unvalued 3 ["# settings", "[tmux]"] "command = " :=
    ⟨⟨[""], by decide +kernel⟩, rfl⟩
  obtain ⟨-, -, reads, -⟩ := (errorLine_told read decoded).2 _ _ _ flawed
  obtain ⟨e, reported, told⟩ := reads (by decide)
  have number : e.number = some 3 := told.number.mpr (by decide)
  refine ⟨e, reported, number, ?_⟩
  exact (told.shown number _ _ here (by decide) (by decide)).mpr (.inl (by decide))

/-- A table is declared again in the second line, and its name looks like a mention of a line. -/
def numbered : String := "[\"line 7\"]\n[\"line 7\"]\n"

/-- A value is missing in the second line, and a line separator stands in the first one. -/
def separated : String := "# a\u2028b\nx = \n"

/-- The name of the table is taken for the place of the error, and what follows the line separator
is shown for the next line. -/
theorem loadFrom_misled :
    Toml.parse numbered =
      .error (.message ("Cannot declare ('line 7',) twice " ++ placeNote 2 10)) ∧
    (loadFrom (textMachine numbered) "s.toml").result = .error (.issue (syntaxIssue "s.toml"
      ⟨some 7, none, "Cannot declare ('line 7',) twice (at line 2, column 10)"⟩)) ∧
    Toml.parse separated = .error (.message ("Invalid value " ++ placeNote 2 5)) ∧
    LineAt separated 2 ["# a\u2028b"] "x = " ∧
    (loadFrom (textMachine separated) "s.toml").result = .error (.issue (syntaxIssue "s.toml"
      ⟨some 2, some "b", "Invalid value (at line 2, column 5)"⟩)) := by
  have twice : Toml.parse numbered =
      .error (.message ("Cannot declare ('line 7',) twice " ++ placeNote 2 10)) :=
    eq_error_of_error? (by decide +kernel)
  have missing : Toml.parse separated =
      .error (.message ("Invalid value " ++ placeNote 2 5)) :=
    eq_error_of_error? (by decide +kernel)
  refine ⟨twice, ?_, missing, ⟨⟨[""], by decide +kernel⟩, rfl⟩, ?_⟩
  · have read : (textMachine numbered).read "s.toml" = .ok numbered.toUTF8.toList :=
      eq_ok_of_toOption (by decide +kernel)
    have decoded : Surroundings.decode numbered.toUTF8.toList = .ok numbered :=
      eq_ok_of_toOption (by decide +kernel)
    have found : pointed numbered ("Cannot declare ('line 7',) twice " ++ placeNote 2 10) =
        ⟨some 7, none, "Cannot declare ('line 7',) twice (at line 2, column 10)"⟩ := by
      decide +kernel
    rw [loadFrom_of_flaw read decoded twice (by decide +kernel), found]
  · have read : (textMachine separated).read "s.toml" = .ok separated.toUTF8.toList :=
      eq_ok_of_toOption (by decide +kernel)
    have decoded : Surroundings.decode separated.toUTF8.toList = .ok separated :=
      eq_ok_of_toOption (by decide +kernel)
    have found : pointed separated ("Invalid value " ++ placeNote 2 5) =
        ⟨some 2, some "b", "Invalid value (at line 2, column 5)"⟩ := by
      decide +kernel
    rw [loadFrom_of_flaw read decoded missing (by decide +kernel), found]

end SessionPlan.Settings
