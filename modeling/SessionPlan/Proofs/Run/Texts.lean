import SessionPlan.Proofs.Json.Plain
import SessionPlan.Proofs.Run.Ends
import SessionPlan.Proofs.Settings.Loaded
import SessionPlan.Proofs.Toml.Found
import SessionPlan.Proofs.Toml.Tables
import SessionPlan.Proofs.Yaml.Read

/-! How a run ends that begins with a text or with the bytes of a file. Flaws of a text become
issues, but decoding is not guarded, and neither is what goes wrong while values are made out of
well-formed text. -/
namespace SessionPlan
open SessionPlan.Text

/-- What comes of text that is no JSON document is a problem, or something past the guard. -/
theorem Document.jsonFailure_among {text : String} {e : Json.Error}
    (stands : e.flaw.StandsIn (some digitLimit) text.toList) :
    (Document.jsonFailure text e).Among (Json.Escapes text) := by
  unfold Document.jsonFailure
  split
  · rename_i count known
    rw [known] at stands
    obtain ⟨many, digits, run, rfl, decimal⟩ := stands
    exact .number run decimal (by simpa [allowsDigits] using many)
  · rename_i known
    rw [known] at stands
    obtain ⟨rest, after, n, escape, number, alone⟩ := stands
    have half : 0xd800 ≤ n ∧ n ≤ 0xdfff := by
      simp only [Json.isLowUnit, Json.isHighUnit, Bool.and_eq_true, decide_eq_true_eq] at alone
      omega
    exact .half escape number half (alone.imp_right And.right)
  · trivial

/-- A name of another kind is refused, unless an integer in it is too long. -/
theorem Document.format_failsOnly (name : Tree) :
    FailsOnly (Failure.Among fun fault =>
      fault = .unwritable ∧ ∃ n ∈ name.integers, IsOverlong n) (Document.format name) := by
  unfold Document.format
  split
  · exact .ok _
  · exact .rejectNumbers trivial fun n member long => ⟨rfl, n, member, isOverlong_iff.mpr long⟩

/-- Whatever the format, a document that is read has plain keys; and in JSON nothing can hold
itself. -/
theorem Document.parse_yields (f : Document.Format) (text : String) :
    Yields (Failure.Among fun fault =>
        f = .yaml ∧ Yaml.Escapes text fault ∨ f = .json ∧ Json.Escapes text fault)
      (fun document => document.KeysPlain ∧ (f = .json → document.IsPlain))
      (Document.parse f text) := by
  cases f with
  | yaml =>
    have read := Yaml.parse_yields text
    unfold Document.parse
    cases parsed : Yaml.parse text with
    | error e =>
      have among := read.fails e parsed
      cases e with
      | flaw _ _ => exact .error trivial
      | fault fault => exact .error (.inl ⟨rfl, among⟩)
    | ok document => exact .ok ⟨read.gives document parsed, nofun⟩
  | json =>
    have read := @Json.parseChars_reads (some digitLimit) text.toList
    unfold Document.parse
    cases parsed : Json.parseChars (some digitLimit) text.toList with
    | error e =>
      exact .error (Failure.Among.mono (fun _ escapes => .inr ⟨rfl, escapes⟩) _
        (Document.jsonFailure_among (read.fails e parsed)))
    | ok document =>
      have plain := read.gives document parsed
      exact .ok ⟨plain.keysPlain, fun _ => plain⟩

namespace Run

/-- A run ends with an answer or with an issue for the caller, or one of these faults goes past
him. -/
def EndsBut (faults : Fault → Prop) (r : Except Stop α) : Prop :=
  (∃ a, r = .ok a) ∨ (∃ issue, r = .error (.issue issue)) ∨
    ∃ fault, faults fault ∧ r = .error (.failure (.fault fault))

/-- What goes past the caller when a text is compiled: that the format's name cannot be shown, what
the reader of the format does not guard, a YAML document that holds itself, and what is read or
written without a guard once the variables of the document are expanded. -/
inductive TextFault (home : String) (values : Variables) (wishes : Document.Wishes)
    (formatName : Tree) (text : String) : Fault → Prop
  | format {n : Int} (inside : n ∈ formatName.integers) (long : IsOverlong n) :
    TextFault home values wishes formatName text .unwritable
  | yaml {fault : Fault} (named : Document.format formatName = .ok .yaml)
      (escapes : Yaml.Escapes text fault) : TextFault home values wishes formatName text fault
  | json {fault : Fault} (named : Document.format formatName = .ok .json)
      (escapes : Json.Escapes text fault) : TextFault home values wishes formatName text fault
  | endless {document : Tree} (named : Document.format formatName = .ok .yaml)
      (parsed : Document.parse .yaml text = .ok document) (itself : ¬document.IsPlain) :
    TextFault home values wishes formatName text .endless
  | unplanned {f : Document.Format} {document expanded : Tree} {fault : Fault}
      (named : Document.format formatName = .ok f) (parsed : Document.parse f text = .ok document)
      (expansion : document.expand values = .ok expanded)
      (unplanned : Unplanned home wishes expanded fault) :
    TextFault home values wishes formatName text fault

/-- What goes past the caller when settings are read from a text: a decimal that is too long, a
message that mentions a line with too long a number, and a refusal that cannot be written. -/
inductive SettingsFault (text : String) : Fault → Prop
  | number {count : Nat} (digits : Toml.HoldsDigits (Toml.plainBreaks text.toList) count)
      (many : digitLimit < count) : SettingsFault text (.unreadable count)
  | mention {message : String} (flawed : Toml.parse text = .error (.message message))
      (many : digitLimit < Settings.mentionedLength message) :
    SettingsFault text (.unreadable (Settings.mentionedLength message))
  | refusal {user : List (Tree × Tree)} (parsed : Toml.parse text = .ok user)
      (unshown : Settings.Unshown user) : SettingsFault text .unwritable

/-- What can go wrong with a document whose keys are plain: a problem, or that it holds itself, or
what stands in it once it is expanded. -/
theorem document_failsOnly {settings document : Tree}
    (valid : Settings.flaw? settings = .ok none) (keys : document.KeysPlain) (home : String)
    (values : Variables) (wishes : Document.Wishes) :
    FailsOnly (Failure.Among fun fault => fault = .endless ∧ ¬document.IsPlain ∨
        ∃ expanded, document.expand values = .ok expanded ∧ Unplanned home wishes expanded fault)
      ((Document.normalize home values wishes document).result >>= fun p =>
        multiplexer settings p >>= fun override => p.plan override) := by
  cases expansion : document.expand values with
  | error failure =>
    have ended : (Document.normalize home values wishes document).result = .error failure := by
      simp only [Document.normalize, Noted.result_bind_eq, Noted.result_liftM, expansion]
      rfl
    rw [ended]
    exact .error (Failure.Among.mono (fun _ => .inl) failure
      (Tree.expand_endless values keys failure expansion))
  | ok expanded =>
    exact (stages_failsOnly valid home wishes expansion).mono
      (Failure.Among.mono fun _ blamed => .inr ⟨expanded, rfl, blamed⟩)

theorem endsBut_mapError {faults : Fault → Prop} {x : Except Failure α}
    (fails : FailsOnly (Failure.Among faults) x) : EndsBut faults (x.mapError stopOf) := by
  cases x with
  | ok a => exact .inl ⟨a, rfl⟩
  | error failure =>
    have among := fails failure rfl
    cases failure with
    | problem problem => exact .inr (.inl ⟨problem.issue, rfl⟩)
    | fault fault => exact .inr (.inr ⟨fault, among, rfl⟩)

theorem compileText_endsBut {settings : Tree} (valid : Settings.flaw? settings = .ok none)
    (s : Surroundings) (values : Variables) (wishes : Document.Wishes) (formatName : Tree)
    (text : String) :
    EndsBut (TextFault s.home values wishes formatName text)
      (compileText s (some settings) values wishes formatName text).result := by
  have whole : (compileText s (some settings) values wishes formatName text).result =
      ((Document.format formatName >>= fun f => Document.parse f text) >>= fun document =>
        (Document.normalize s.home values wishes document).result >>= fun p =>
          multiplexer settings p >>= fun override => p.plan override).mapError stopOf := by
    simp only [compileText, Noted.result_bind_eq, result_onIssue, guarded, Noted.result_lift,
      result_compile_eq]
    cases Document.format formatName >>= fun f => Document.parse f text <;> rfl
  rw [whole]
  refine endsBut_mapError ?_
  cases named : Document.format formatName with
  | error failure =>
    refine .error (Failure.Among.mono ?_ failure
      (Document.format_failsOnly formatName failure named))
    rintro fault ⟨rfl, n, inside, long⟩
    exact .format inside long
  | ok f =>
    rw [ok_bind]
    have read := Document.parse_yields f text
    cases parsed : Document.parse f text with
    | error failure =>
      refine .error (Failure.Among.mono ?_ failure (read.fails failure parsed))
      rintro fault (⟨rfl, escapes⟩ | ⟨rfl, escapes⟩)
      · exact .yaml named escapes
      · exact .json named escapes
    | ok document =>
      obtain ⟨keys, plain⟩ := read.gives document parsed
      refine (document_failsOnly valid keys s.home values wishes).mono
        (Failure.Among.mono fun fault passes => ?_)
      rcases passes with ⟨rfl, itself⟩ | ⟨expanded, expansion, unplanned⟩
      · cases f with
        | yaml => exact .endless named parsed itself
        | json => exact absurd (plain rfl) itself
      · exact .unplanned named parsed expansion unplanned

theorem result_projectText {s : Surroundings} {path : String} {bytes : List UInt8}
    (read : s.read path = .ok bytes) : (projectText s path).result =
      ((Surroundings.decode bytes).mapError (Stop.failure ∘ .fault)).map
        Surroundings.plainText := by
  simp only [projectText, read, Noted.result_bind_eq, unguarded, Noted.result_lift]
  cases Surroundings.decode bytes <;> rfl

/-- The format of a file follows from its name, and without a hint it is YAML. -/
def formatNameOf (path : String) : Tree := .text ((Document.Format.ofPath? path).getD .yaml).name

theorem compileFile_endsBut {settings : Tree} (valid : Settings.flaw? settings = .ok none)
    (s : Surroundings) (values : Variables) (name : Option (Option String)) (attach : Option Bool)
    {path : String} {bytes : List UInt8} (read : s.read (Path.shown path) = .ok bytes) :
    match Surroundings.decode bytes with
    | .error fault => (compileFile s (some settings) values name attach path).result =
        .error (.failure (.fault fault))
    | .ok text => EndsBut (TextFault s.home values ⟨name.getD (some (Path.stem path)), attach⟩
          (formatNameOf path) (Surroundings.plainText text))
        (compileFile s (some settings) values name attach path).result := by
  have whole : (compileFile s (some settings) values name attach path).result =
      (projectText s (Path.shown path)).result >>= fun text =>
        (compileText s (some settings) values ⟨name.getD (some (Path.stem path)), attach⟩
          (formatNameOf path) text).result := by
    simp only [compileFile, Noted.result_bind_eq, result_onIssue, formatNameOf]
  rw [whole, result_projectText read]
  split
  · rename_i fault undecodable
    rw [undecodable, Except.mapError, Except.map]
    exact rfl
  · rename_i text decoded
    rw [decoded, Except.mapError, Except.map, ok_bind]
    exact compileText_endsBut valid s values _ (formatNameOf path) _

theorem tables_of_parse {s : Surroundings} {path text : String} {user : List (Tree × Tree)}
    (parsed : Toml.parse text = .ok user) :
    (Settings.tables s path text).result = .ok (.mapping user) := by
  simp only [Settings.tables, parsed]
  rfl

theorem loadFrom_ends {s : Surroundings} {path : String} {bytes : List UInt8}
    (read : s.read path = .ok bytes) :
    match Surroundings.decode bytes with
    | .error fault => (Settings.loadFrom s path).result = .error (.failure (.fault fault))
    | .ok text => EndsBut (SettingsFault text) (Settings.loadFrom s path).result := by
  split
  · rename_i fault undecodable
    rw [Settings.result_loadFrom_of_read read, undecodable]
    rfl
  · rename_i text decoded
    cases parsed : Toml.parse text with
    | error refusal =>
      cases refusal with
      | overlong count =>
        obtain ⟨many, digits⟩ := Toml.overlong_of_parse parsed
        exact .inr (.inr ⟨_, .number digits many,
          Settings.loadFrom_of_overlong read decoded parsed⟩)
      | message message =>
        by_cases few : Settings.mentionedLength message ≤ digitLimit
        · exact .inr (.inl ⟨_, Settings.loadFrom_of_flaw read decoded parsed few⟩)
        · have many := Nat.not_le.mp few
          exact .inr (.inr ⟨_, .mention parsed many,
            Settings.loadFrom_of_mention read decoded parsed many⟩)
    | ok user =>
      have laid := Settings.merge_defaults user
      rw [Settings.result_loadFrom_of_read read, decoded, Except.mapError, ok_bind,
        tables_of_parse parsed, ok_bind, laid, Except.mapError, ok_bind]
      rcases Settings.check_outcome (Toml.parse_toml parsed) path laid with
        ⟨-, accepted⟩ | ⟨-, ⟨issue, refused⟩, -⟩ | ⟨-, failed, unshown⟩
      · exact .inl ⟨_, by rw [accepted]; rfl⟩
      · exact .inr (.inl ⟨issue, by rw [refused]; rfl⟩)
      · exact .inr (.inr ⟨_, .refusal parsed unshown, by rw [failed]; rfl⟩)

/-- With valid settings, compiling a text ends with a plan or with an issue, save for what the
reader of its format does not guard and for what documents can hold that is read or written without
a guard. A file that can be read ends like its text if it has one; but bytes that are no UTF-8 go
past the caller, of a project file and of a settings file. All else that a settings file can say
gives settings or an issue, unless a number in it has too many digits. -/
theorem files_end {settings : Tree} (valid : Settings.flaw? settings = .ok none)
    (s : Surroundings) :
    (∀ values wishes formatName text, EndsBut (TextFault s.home values wishes formatName text)
      (compileText s (some settings) values wishes formatName text).result) ∧
    (∀ values name attach path bytes, s.read (Path.shown path) = .ok bytes →
      match Surroundings.decode bytes with
      | .error fault => (compileFile s (some settings) values name attach path).result =
          .error (.failure (.fault fault))
      | .ok text => EndsBut (TextFault s.home values ⟨name.getD (some (Path.stem path)), attach⟩
            (formatNameOf path) (Surroundings.plainText text))
          (compileFile s (some settings) values name attach path).result) ∧
    ∀ path bytes, s.read path = .ok bytes →
      match Surroundings.decode bytes with
      | .error fault => (Settings.loadFrom s path).result = .error (.failure (.fault fault))
      | .ok text => EndsBut (SettingsFault text) (Settings.loadFrom s path).result :=
  ⟨fun values wishes formatName text =>
      compileText_endsBut valid s values wishes formatName text,
    fun values name attach _ _ read => compileFile_endsBut valid s values name attach read,
    fun _ _ read => loadFrom_ends read⟩

/-- A machine with a document, with settings, and with a file that is no text. -/
def mixedMachine : Surroundings where
  environ := [("HOME", "/home/ann")]
  directory := "/home/ann"
  files := [("dev.yml", .bytes "windows: [vim]\n".toUTF8.toList),
    ("s.toml", .bytes "[tmux]\ncommand = 'tmux -2'\n".toUTF8.toList), ("noise", .bytes [0xff])]

theorem files_end_mixed :
    Settings.flaw? Settings.defaults = .ok none ∧
    EndsBut (TextFault mixedMachine.home ⟨[]⟩ {} (.text "json") "[")
      (compileText mixedMachine (some Settings.defaults) ⟨[]⟩ {} (.text "json") "[").result ∧
    EndsBut (TextFault mixedMachine.home ⟨[]⟩ ⟨some "dev", none⟩ (.text "yaml")
        "windows: [vim]\n")
      (compileFile mixedMachine (some Settings.defaults) ⟨[]⟩ none none "./dev.yml").result ∧
    EndsBut (SettingsFault "[tmux]\ncommand = 'tmux -2'\n")
      (Settings.loadFrom mixedMachine "s.toml").result := by
  have ends := files_end flaw?_defaults mixedMachine
  refine ⟨flaw?_defaults, ends.1 ⟨[]⟩ {} (.text "json") "[", ?_, ?_⟩
  · have read : mixedMachine.read (Path.shown "./dev.yml") =
        .ok "windows: [vim]\n".toUTF8.toList := eq_ok_of_toOption (by decide +kernel)
    have decoded : Surroundings.decode "windows: [vim]\n".toUTF8.toList =
        .ok "windows: [vim]\n" := eq_ok_of_toOption (by decide +kernel)
    have ended := ends.2.1 ⟨[]⟩ none none "./dev.yml" _ read
    rw [decoded] at ended
    have named : formatNameOf "./dev.yml" = .text "yaml" := congrArg Tree.text (by decide)
    have plain : Surroundings.plainText "windows: [vim]\n" = "windows: [vim]\n" := by
      decide
    rw [← named, ← plain]
    exact ended
  · have read : mixedMachine.read "s.toml" = .ok "[tmux]\ncommand = 'tmux -2'\n".toUTF8.toList :=
      eq_ok_of_toOption (by decide +kernel)
    have decoded : Surroundings.decode "[tmux]\ncommand = 'tmux -2'\n".toUTF8.toList =
        .ok "[tmux]\ncommand = 'tmux -2'\n" := eq_ok_of_toOption (by decide +kernel)
    have ended := ends.2.2 "s.toml" _ read
    rw [decoded] at ended
    exact ended

/-- Neither a file that is no text nor a date that there is not becomes an issue. -/
theorem files_escape :
    (∃ fault, (compileFile mixedMachine (some Settings.defaults) ⟨[]⟩ none none "noise").result =
        .error (.failure (.fault fault)) ∧ fault.message? =
          some "'utf-8' codec can't decode byte 0xff in position 0: invalid start byte") ∧
    (∃ fault, (Settings.loadFrom mixedMachine "noise").result =
        .error (.failure (.fault fault)) ∧ fault.message? =
          some "'utf-8' codec can't decode byte 0xff in position 0: invalid start byte") ∧
    ∃ fault, (compileText mixedMachine (some Settings.defaults) ⟨[]⟩ {} (.text "yaml")
        "2001-13-45\n").result = .error (.failure (.fault fault)) ∧
      fault.message? = some "month must be in 1..12" :=
  ⟨fault_of_faultWords? (by decide +kernel), fault_of_faultWords? (by decide +kernel),
    fault_of_faultWords? (by decide +kernel)⟩

end Run
end SessionPlan
