import SessionPlan.Proofs.Settings.Checked

/-! The settings in force. Those of a file have been checked, but the multiplexer that the
environment names is laid over them afterwards, and nothing looks at it then. -/
namespace SessionPlan.Settings
open SessionPlan.Tree (get?)
open SessionPlan.Text

/-- Settings without a flaw are whole. -/
theorem exists_whole {settings : Tree} (valid : flaw? settings = .ok none) :
    ∃ entries format shells level, settings = .mapping entries ∧
      Whole entries format shells level := by
  cases settings with
  | mapping entries =>
    have sectioned : Sectioned entries := by
      rw [← sectionFlaw?_eq_none_iff]
      cases found : sectionFlaw? entries with
      | none => rfl
      | some flaw =>
        simp only [flaw?, found] at valid
        cases valid
    have noFlaw := sectionFlaw?_eq_none_iff.mpr sectioned
    have present {name key : String} (known : name ∈ sectionNames) {value : Tree}
        (read : setting (.mapping entries) name key = .ok value) :
        set? entries name key = some value := by
      rw [setting_of_sectioned sectioned known] at read
      split at read
      · rename_i found
        cases read
        exact found
      · cases read
    simp only [flaw?, noFlaw] at valid
    obtain ⟨format, formatRead, valid⟩ := bind_eq_ok.mp valid
    split at valid
    · cases valid
    obtain ⟨command, -, valid⟩ := bind_eq_ok.mp valid
    split at valid
    · cases valid
    obtain ⟨shells, shellsRead, valid⟩ := bind_eq_ok.mp valid
    split at valid
    · cases valid
    obtain ⟨level, levelRead, -⟩ := bind_eq_ok.mp valid
    exact ⟨entries, format, shells, level, rfl, sectioned, present (by decide) formatRead,
      present (by decide) shellsRead, present (by decide) levelRead⟩
  | _ => cases valid

/-- Without its log, loading a file that is there is to read it, to merge and to check. -/
theorem result_loadFrom (s : Surroundings) (path : String) :
    (loadFrom s path).result = ((s.isPresent path).mapError .failure >>= fun present =>
      if present then (fileTables s path).result >>= fun user =>
        (merge defaults user).mapError .failure >>= fun merged =>
          (check path merged).mapError .failure >>= fun result => result.mapError .issue
      else .error (.issue (missingIssue path))) := by
  have noted (n : Log.Record) : (Noted.note n : Run Unit).result = .ok () := rfl
  simp only [loadFrom, Noted.result_bind_eq, noted, ok_bind, Run.unguarded, Noted.result_lift]
  cases (s.isPresent path).mapError Stop.failure with
  | error e => rfl
  | ok present =>
    cases present with
    | false => rfl
    | true =>
      simp only [ok_bind, Bool.not_true, Bool.false_eq_true, if_false, if_true,
        Noted.result_bind_eq, noted, Noted.result_lift, Run.checked]

theorem isPresent_of_read {s : Surroundings} {path : String} {bytes : List UInt8}
    (read : s.read path = .ok bytes) : s.isPresent path = .ok true := by
  unfold Surroundings.read at read
  unfold Surroundings.isPresent
  split at read
  · cases read
  · rename_i whole
    rw [if_neg whole]
    split at read <;> cases read
    rename_i file
    rw [file]

/-- The error of a text with the line that its message mentions. -/
def pointed (text message : String) : ErrorLine where
  number := mentionedLine? message.toList
  content := ((mentionedLine? message.toList).filter (0 < ·)).bind (lineOf? text)
  raw := message

/-- How many digits the number has that is mentioned first. -/
def mentionedLength (message : String) : Nat := ((mentionedDigits? message.toList).getD []).length

section
variable {s : Surroundings} {path text : String} {bytes : List UInt8}

theorem errorLine_overlong (s : Surroundings) (path : String) {message : String}
    (many : digitLimit < mentionedLength message) :
    errorLine s path message = .error (.fault (.unreadable (mentionedLength message))) := by
  have long : digitLimit < ((mentionedDigits? message.toList).getD []).length := many
  simp only [errorLine, if_pos long]
  rfl

/-- The line that an error message points at is found in any file that can be decoded, if its
number can be read. -/
theorem errorLine_of_read (read : s.read path = .ok bytes)
    (decoded : Surroundings.decode bytes = .ok text) {message : String}
    (few : mentionedLength message ≤ digitLimit) :
    errorLine s path message = .ok (pointed text message) := by
  have short : ¬digitLimit < ((mentionedDigits? message.toList).getD []).length :=
    Nat.not_lt.mpr few
  simp only [errorLine, pointed, ErrorLine.position?, if_neg short]
  cases (mentionedLine? message.toList).filter (0 < ·) with
  | none => rfl
  | some n =>
    simp only [isPresent_of_read read, ok_bind, read, decoded, Except.mapError, Bool.not_true,
      Bool.false_eq_true, if_false, Option.bind_some]
    rfl

theorem result_loadFrom_of_read (read : s.read path = .ok bytes) :
    (loadFrom s path).result =
      ((Surroundings.decode bytes).mapError (Stop.failure ∘ .fault)) >>= fun text =>
        (tables s path text).result >>= fun user =>
          (merge defaults user).mapError .failure >>= fun merged =>
            (check path merged).mapError .failure >>= fun result =>
              result.mapError .issue := by
  rw [result_loadFrom, isPresent_of_read read]
  simp only [Except.mapError, ok_bind, if_true, fileTables, read, Noted.result_bind_eq,
    Run.unguarded, Noted.result_lift]
  cases Surroundings.decode bytes <;> rfl

theorem loadFrom_of_tables (read : s.read path = .ok bytes)
    (decoded : Surroundings.decode bytes = .ok text) {stop : Stop}
    (told : (tables s path text).result = .error stop) :
    (loadFrom s path).result = .error stop := by
  rw [result_loadFrom_of_read read, decoded, Except.mapError, ok_bind, told]
  rfl

/-- What is no TOML is reported to the caller. -/
theorem loadFrom_of_flaw (read : s.read path = .ok bytes)
    (decoded : Surroundings.decode bytes = .ok text) {message : String}
    (flawed : Toml.parse text = .error (.message message))
    (few : mentionedLength message ≤ digitLimit) :
    (loadFrom s path).result = .error (.issue (syntaxIssue path (pointed text message))) := by
  refine loadFrom_of_tables read decoded ?_
  simp only [tables, flawed, errorLine_of_read read decoded few, Noted.result_bind_eq,
    Run.unguarded, Noted.result_lift]
  rfl

/-- Unless the number that its message mentions first cannot be read. -/
theorem loadFrom_of_mention (read : s.read path = .ok bytes)
    (decoded : Surroundings.decode bytes = .ok text) {message : String}
    (flawed : Toml.parse text = .error (.message message))
    (many : digitLimit < mentionedLength message) :
    (loadFrom s path).result =
      .error (.failure (.fault (.unreadable (mentionedLength message)))) := by
  refine loadFrom_of_tables read decoded ?_
  simp only [tables, flawed, errorLine_overlong s path many, Noted.result_bind_eq,
    Run.unguarded, Noted.result_lift]
  rfl

/-- A decimal that is too long stops the reader, and is not reported. -/
theorem loadFrom_of_overlong (read : s.read path = .ok bytes)
    (decoded : Surroundings.decode bytes = .ok text) {digits : Nat}
    (flawed : Toml.parse text = .error (.overlong digits)) :
    (loadFrom s path).result = .error (.failure (.fault (.unreadable digits))) := by
  refine loadFrom_of_tables read decoded ?_
  simp only [tables, flawed]
  rfl

end

theorem flaw?_of_check {path : String} {settings accepted : Tree}
    (checked : check path settings = .ok (.ok accepted)) :
    flaw? settings = .ok none ∧ accepted = settings := by
  obtain ⟨flaw, found, checked⟩ := bind_eq_ok.mp checked
  cases flaw with
  | some flaw =>
    obtain ⟨_, -, refused⟩ := bind_eq_ok.mp checked
    cases refused
  | none =>
    cases checked
    exact ⟨found, rfl⟩

/-- Settings of a file are returned only if they have no flaw. -/
theorem loadFrom_valid {s : Surroundings} {path : String} {settings : Tree}
    (loaded : (loadFrom s path).result = .ok settings) : flaw? settings = .ok none := by
  rw [result_loadFrom] at loaded
  obtain ⟨present, -, loaded⟩ := bind_eq_ok.mp loaded
  split at loaded
  · obtain ⟨user, -, loaded⟩ := bind_eq_ok.mp loaded
    obtain ⟨merged, -, loaded⟩ := bind_eq_ok.mp loaded
    cases checked : check path merged with
    | error e => rw [checked] at loaded; cases loaded
    | ok result =>
      rw [checked] at loaded
      cases result with
      | error issue => cases loaded
      | ok accepted =>
        cases loaded
        obtain ⟨valid, rfl⟩ := flaw?_of_check checked
        exact valid
  · cases loaded

/-! ### What the environment lays over settings -/

/-- The environment names a multiplexer, but only with blanks. -/
def NamesBlank (environ : List (String × String)) : Prop :=
  ∃ name, environ.lookup commandVariable = some name ∧ name ≠ "" ∧ isBlankText name = true

/-- Settings with another multiplexer. -/
def withCommand (name : String) (entries : List (Tree × Tree)) : List (Tree × Tree) :=
  overlay entries [tableOf "tmux" [Tree.field "command" (.text name)]]

theorem get?_withCommand {entries inner : List (Tree × Tree)} {name other : String}
    (table : get? entries "tmux" = some (.mapping inner)) :
    get? (withCommand name entries) other = if "tmux" = other
      then some (.mapping (overlay inner [Tree.field "command" (.text name)]))
      else get? entries other := by
  rw [withCommand, get?_overlay (List.pairwise_singleton _ _), tableOf, Tree.field, Tree.get?_cons,
    Tree.get?_nil]
  by_cases here : "tmux" = other
  · subst here
    simp [table, overlaid, Tree.text?]
  · simp [here, Tree.text?]

theorem set?_withCommand {entries : List (Tree × Tree)} (sectioned : Sectioned entries)
    (name other key : String) : set? (withCommand name entries) other key =
      if "tmux" = other ∧ "command" = key then some (.text name) else set? entries other key := by
  obtain ⟨inner, table⟩ := sectioned "tmux" (by decide)
  rw [set?, get?_withCommand table]
  by_cases here : "tmux" = other
  · subst here
    simp only [if_true, true_and, set?, table]
    rw [get?_overlay (List.pairwise_singleton _ _), Tree.field, Tree.get?_cons, Tree.get?_nil]
    by_cases named : "command" = key
    · simp [named, Tree.text?, overlaid]
    · simp [named, Tree.text?]
  · simp only [here, if_false, false_and, set?]

/-- Naming a multiplexer leaves all other settings as they are. -/
theorem Whole.withCommand {entries : List (Tree × Tree)} {format shells level : Tree}
    (whole : Whole entries format shells level) (name : String) :
    Whole (withCommand name entries) format shells level := by
  obtain ⟨inner, table⟩ := whole.sectioned "tmux" (by decide)
  refine ⟨fun other known => ?_, ?_, ?_, ?_⟩
  · rw [get?_withCommand table]
    split
    · exact ⟨_, rfl⟩
    · exact whole.sectioned other known
  all_goals rw [set?_withCommand whole.sectioned, if_neg (by decide)]
  · exact whole.format
  · exact whole.shells
  · exact whole.level

theorem commandOf_withCommand {entries : List (Tree × Tree)} (sectioned : Sectioned entries)
    (name : String) : commandOf (withCommand name entries) = .text name := by
  rw [commandOf, set?_withCommand sectioned, if_pos ⟨rfl, rfl⟩]
  rfl

theorem withEnvironment_mapping (environ : List (String × String))
    (entries : List (Tree × Tree)) : withEnvironment environ (.mapping entries) =
      match (environ.lookup commandVariable).filter (!·.isEmpty) with
      | none => .ok (.mapping entries)
      | some name => .ok (.mapping (withCommand name entries)) := by
  rw [withEnvironment]
  cases (environ.lookup commandVariable).filter (!·.isEmpty) <;> rfl

/-- Valid settings stay valid unless the environment names a blank multiplexer: then it is put in,
and that is their flaw. -/
theorem withEnvironment_flaw {environ : List (String × String)} {settings final : Tree}
    (valid : flaw? settings = .ok none) (laid : withEnvironment environ settings = .ok final) :
    (flaw? final = .ok none ↔ ¬NamesBlank environ) ∧
      (NamesBlank environ → flaw? final = .ok (some .commandBlank)) := by
  obtain ⟨entries, format, shells, level, rfl, whole⟩ := exists_whole valid
  rw [withEnvironment_mapping] at laid
  obtain ⟨formatOk, -, shellsOk, levelOk⟩ :=
    firstFlaw?_eq_none_iff.mp (Except.ok.inj (whole.flaw?_eq.symm.trans valid))
  cases named : (environ.lookup commandVariable).filter (!·.isEmpty) with
  | none =>
    rw [named] at laid
    cases laid
    have unnamed : ¬NamesBlank environ := by
      rintro ⟨name, found, nonempty, -⟩
      simp [found, nonempty] at named
    exact ⟨⟨fun _ => unnamed, fun _ => valid⟩, fun blank => absurd blank unnamed⟩
  | some name =>
    rw [named] at laid
    cases laid
    obtain ⟨found, nonempty⟩ := Option.filter_eq_some_iff.mp named
    have nonempty : name ≠ "" := by simpa using nonempty
    have blank : NamesBlank environ ↔ isBlankText name = true := by
      constructor
      · rintro ⟨other, same, -, blank⟩
        rw [found] at same
        cases same
        exact blank
      · exact fun blank => ⟨name, found, nonempty, blank⟩
    rw [(whole.withCommand name).flaw?_eq, commandOf_withCommand whole.sectioned, Except.ok.injEq,
      firstFlaw?_eq_none_iff, blank]
    refine ⟨?_, fun isBlank => ?_⟩
    · simp [formatOk, shellsOk, levelOk, isCommand]
    · simp [firstFlaw?, formatOk, isCommand, isBlank]

/-- Without its log, finding the settings in force is to load the file, if there is one, and to lay
the environment over what was found. -/
theorem result_load (s : Surroundings) (environ : List (String × String)) :
    (load s environ).result = ((location s).mapError .failure >>= fun path =>
      (s.isPresent path).mapError .failure >>= fun present =>
        (if present then (loadFrom s path).result else .ok defaults) >>= fun settings =>
          (withEnvironment environ settings).mapError .failure) := by
  have noted (n : Log.Record) : (Noted.note n : Run Unit).result = .ok () := rfl
  simp only [load, Noted.result_bind_eq, Run.unguarded, Noted.result_lift]
  refine congrArg _ (funext fun path => congrArg _ (funext fun present => ?_))
  cases present with
  | false => simp [Noted.result_bind_eq, ok_bind, Noted.result_lift]
  | true => simp [Noted.result_bind_eq, Noted.result_lift]

/-- Wherever the settings in force come from, they pass the check unless the environment names a
blank multiplexer; and then it is all that is wrong with them. -/
theorem load_flaw {s : Surroundings} {environ : List (String × String)} {settings : Tree}
    (loaded : (load s environ).result = .ok settings) :
    (flaw? settings = .ok none ↔ ¬NamesBlank environ) ∧
      (NamesBlank environ → flaw? settings = .ok (some .commandBlank)) := by
  rw [result_load] at loaded
  obtain ⟨path, -, loaded⟩ := bind_eq_ok.mp loaded
  obtain ⟨present, -, loaded⟩ := bind_eq_ok.mp loaded
  obtain ⟨found, read, laid⟩ := bind_eq_ok.mp loaded
  have valid : flaw? found = .ok none := by
    split at read
    · exact loadFrom_valid read
    · cases read
      exact Run.flaw?_defaults
  have overlaid : withEnvironment environ found = .ok settings := by
    cases ended : withEnvironment environ found with
    | error e =>
      rw [ended] at laid
      cases laid
    | ok final =>
      rw [ended] at laid
      cases laid
      rfl
  exact withEnvironment_flaw valid overlaid

/-- A machine whose settings file names a multiplexer. -/
def flaggedMachine : Surroundings where
  environ := [("HOME", "/home/ann"), (fileVariable, "s.toml")]
  directory := "/home/ann"
  files := [("s.toml", .bytes "[tmux]\ncommand = 'tmux -2'\n".toUTF8.toList)]

theorem load_flaw_flagged :
    ∃ settings, (load flaggedMachine [(commandVariable, "byobu")]).result = .ok settings ∧
      (flaw? settings = .ok none ↔ ¬NamesBlank [(commandVariable, "byobu")]) ∧
      (NamesBlank [(commandVariable, "byobu")] → flaw? settings = .ok (some .commandBlank)) := by
  have some : (load flaggedMachine [(commandVariable, "byobu")]).result.toOption.isSome = true := by
    decide +kernel
  obtain ⟨settings, found⟩ := Option.isSome_iff_exists.mp some
  have loaded := eq_ok_of_toOption found
  exact ⟨settings, loaded, load_flaw loaded⟩

/-- A multiplexer of one blank is taken over from the environment, and the settings are returned. -/
theorem load_blank :
    (load Run.bareMachine [(commandVariable, " ")]).result =
        .ok (.mapping (withCommand " " defaultTables)) ∧
      flaw? (.mapping (withCommand " " defaultTables)) = .ok (some .commandBlank) ∧
      command (.mapping (withCommand " " defaultTables)) = .ok (.text " ") := by
  have valid : flaw? (.mapping defaultTables) = .ok none := Run.flaw?_defaults
  have laid : withEnvironment [(commandVariable, " ")] (.mapping defaultTables) =
      .ok (.mapping (withCommand " " defaultTables)) := rfl
  have blank : NamesBlank [(commandVariable, " ")] := ⟨" ", rfl, by decide, by decide⟩
  obtain ⟨entries, format, shells, level, same, whole⟩ := exists_whole valid
  cases same
  refine ⟨?_, (withEnvironment_flaw valid laid).2 blank, ?_⟩
  · have path : location Run.bareMachine = .ok "/home/ann/.config/tmux-layout/config.toml" :=
      eq_ok_of_toOption (by decide)
    have absent : Run.bareMachine.isPresent "/home/ann/.config/tmux-layout/config.toml" =
        .ok false := eq_ok_of_toOption (by decide)
    rw [result_load, path]
    simp only [Except.mapError, ok_bind, absent]
    rfl
  · rw [(whole.withCommand " ").command_eq, commandOf_withCommand whole.sectioned]

end SessionPlan.Settings
