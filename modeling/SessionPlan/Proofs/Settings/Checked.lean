import SessionPlan.Proofs.Run.Ends
import SessionPlan.Proofs.Settings.Merged
import SessionPlan.Run.Freeze

/-! Which settings are accepted. The user's settings are merged over the defaults and then checked:
the check always ends, it accepts just what the user may say, and what it accepts can be used by
everything that looks at settings later. -/
namespace SessionPlan.Settings
open SessionPlan.Tree (get?)
open SessionPlan.Text

/-! ### The single checks -/

theorem isFormat_iff {value : Tree} :
    isFormat value = true ↔ value = .text "yaml" ∨ value = .text "json" := by
  cases value with
  | text s =>
    simp only [isFormat, Tree.text?, Option.bind_some, Tree.text.injEq]
    constructor
    · intro known
      obtain ⟨format, found⟩ := Option.isSome_iff_exists.mp known
      have named : format.name = s := by simpa using List.find?_some found
      cases format
      · exact .inl named.symm
      · exact .inr named.symm
    · rintro (rfl | rfl) <;> decide
  | _ => simp [isFormat, Tree.text?]

theorem isCommand_iff {value : Tree} :
    isCommand value = true ↔ value = .null ∨ ∃ s, value = .text s ∧ isBlankText s = false := by
  cases value <;> simp [isCommand]

theorem isTextList_iff {value : Tree} :
    isTextList value = true ↔ ∃ items, value = Tree.texts items := by
  constructor
  · intro texts
    cases value with
    | list items =>
      simp only [isTextList, List.all_eq_true] at texts
      refine ⟨items.filterMap Tree.text?, congrArg Tree.list ?_⟩
      rw [List.map_filterMap]
      symm
      refine (List.filterMap_congr fun t member => ?_).trans (List.filterMap_some (l := items))
      obtain ⟨s, found⟩ := Option.isSome_iff_exists.mp (texts t member)
      cases t <;> cases found
      rfl
    | _ => cases texts
  · rintro ⟨items, rfl⟩
    simp [Tree.texts, isTextList, Tree.text?]

theorem isLevel_iff {value : Tree} :
    isLevel value = true ↔ ∃ s level, value = .text s ∧ upper s = Log.Level.name level := by
  cases value with
  | text s =>
    simp only [isLevel, Tree.text.injEq]
    constructor
    · intro known
      obtain ⟨level, found⟩ := Option.isSome_iff_exists.mp known
      have named : level.name = upper s := by simpa using List.find?_some found
      exact ⟨s, level, rfl, named.symm⟩
    · rintro ⟨_, level, rfl, named⟩
      rw [named, Log.Level.ofName?_name]
      rfl
  | _ => simp [isLevel]

/-! ### All checks -/

/-- Each section is a table. -/
def Sectioned (entries : List (Tree × Tree)) : Prop :=
  ∀ name ∈ sectionNames, ∃ inner, get? entries name = some (.mapping inner)

theorem sectionFlaw?_eq_none_iff {entries : List (Tree × Tree)} :
    sectionFlaw? entries = none ↔ Sectioned entries := by
  simp only [sectionFlaw?, List.findSome?_eq_none_iff, Sectioned]
  refine forall_congr' fun name => forall_congr' fun _ => ?_
  cases found : get? entries name with
  | none => simp [isTable]
  | some value => simp [isTable_iff]

/-- A flaw of the sections is that one of them is no table. -/
theorem sectionFlaw?_eq_some {entries : List (Tree × Tree)} (flawed : sectionFlaw? entries ≠ none) :
    ∃ name found, sectionFlaw? entries = some (.sectionKind name found) := by
  obtain ⟨flaw, known⟩ := Option.ne_none_iff_exists'.mp flawed
  obtain ⟨name, -, kind⟩ := List.exists_of_findSome?_eq_some known
  dsimp only at kind
  split at kind
  · cases kind
  · exact ⟨_, _, known.trans kind.symm⟩

theorem setting_of_sectioned {entries : List (Tree × Tree)} (sectioned : Sectioned entries)
    {name key : String} (known : name ∈ sectionNames) :
    setting (.mapping entries) name key =
      match set? entries name key with
      | some value => .ok value
      | none => .error (.fault .keyMissing) := by
  obtain ⟨inner, table⟩ := sectioned name known
  unfold setting set?
  rw [entry, table]
  rfl

/-- The first of the settings that has no allowed value. -/
def firstFlaw? (format command shells level : Tree) : Option Flaw :=
  if isFormat format = false then some (.formatUnknown format)
  else if isCommand command = false then some .commandBlank
  else if isTextList shells = false then some .shellsKind
  else if isLevel level = false then some (.levelUnknown level)
  else none

theorem firstFlaw?_eq_none_iff {format command shells level : Tree} :
    firstFlaw? format command shells level = none ↔ isFormat format = true ∧
      isCommand command = true ∧ isTextList shells = true ∧ isLevel level = true := by
  unfold firstFlaw?
  cases isFormat format <;> cases isCommand command <;> cases isTextList shells <;>
    cases isLevel level <;> simp

/-- Settings whose sections are tables, with all entries that the checks look at. -/
structure Whole (entries : List (Tree × Tree)) (format shells level : Tree) : Prop where
  sectioned : Sectioned entries
  format : set? entries "document" "format" = some format
  shells : set? entries "freeze" "shell_commands" = some shells
  level : set? entries "logging" "level" = some level

/-- The multiplexer of settings; without one it is null. -/
def commandOf (entries : List (Tree × Tree)) : Tree := (set? entries "tmux" "command").getD .null

namespace Whole
variable {entries : List (Tree × Tree)} {format shells level : Tree}

theorem setting_eq (whole : Whole entries format shells level) {name key : String} {value : Tree}
    (known : name ∈ sectionNames) (found : set? entries name key = some value) :
    setting (.mapping entries) name key = .ok value := by
  rw [setting_of_sectioned whole.sectioned known, found]

theorem command_eq (whole : Whole entries format shells level) :
    command (.mapping entries) = .ok (commandOf entries) := by
  obtain ⟨inner, table⟩ := whole.sectioned "tmux" (by decide)
  simp only [command, entry, table, ok_bind, commandOf, set?]
  rfl

theorem flaw?_eq (whole : Whole entries format shells level) :
    flaw? (.mapping entries) = .ok (firstFlaw? format (commandOf entries) shells level) := by
  have noFlaw := sectionFlaw?_eq_none_iff.mpr whole.sectioned
  simp only [flaw?, noFlaw, whole.setting_eq (by decide) whole.format,
    whole.setting_eq (by decide) whole.shells, whole.setting_eq (by decide) whole.level,
    whole.command_eq, ok_bind, firstFlaw?]
  cases isFormat format
  · rfl
  cases isCommand (commandOf entries)
  · rfl
  cases isTextList shells
  · rfl
  cases isLevel level <;> rfl

end Whole

/-! ### Settings of a user -/

/-- What a user may say: sections are tables, and each setting that is given has one of the values
that are allowed for it. -/
structure Accepted (user : List (Tree × Tree)) : Prop where
  sections : ∀ name ∈ sectionNames, ∀ value, get? user name = some value →
    ∃ inner, value = .mapping inner
  format : ∀ value, set? user "document" "format" = some value →
    value = .text "yaml" ∨ value = .text "json"
  command : ∀ value, set? user "tmux" "command" = some value →
    ∃ s, value = .text s ∧ isBlankText s = false
  shells : ∀ value, set? user "freeze" "shell_commands" = some value →
    ∃ items, value = Tree.texts items
  level : ∀ value, set? user "logging" "level" = some value →
    ∃ s level, value = .text s ∧ upper s = Log.Level.name level

/-- Whatever looks at settings later finds what it needs there. -/
structure Usable (settings : Tree) : Prop where
  multiplexer : ∀ p, ∃ override, Run.multiplexer settings p = .ok override
  format : ∃ name format, setting settings "document" "format" = .ok name ∧
    Document.format name = .ok format
  shells : ∃ items, setting settings "freeze" "shell_commands" = .ok (Tree.texts items) ∧
    Run.memberTexts (Tree.texts items) = .ok items
  level : ∃ name level, setting settings "logging" "level" = .ok name ∧
    Log.Level.ofSetting name = .ok level

theorem memberTexts_texts (items : List String) :
    Run.memberTexts (Tree.texts items) = .ok items := by
  have keys : (items.map Tree.text).all Tree.isKey = true := by simp [Tree.isKey]
  have found : (items.map Tree.text).filterMap Tree.text? = items := by
    rw [List.filterMap_map]
    exact List.filterMap_some
  rw [Tree.texts, Run.memberTexts, if_pos keys, found]

/-- Settings without a flaw can be used. -/
theorem Whole.usable {entries : List (Tree × Tree)} {format shells level : Tree}
    (whole : Whole entries format shells level) (valid : flaw? (.mapping entries) = .ok none) :
    Usable (.mapping entries) := by
  obtain ⟨formatOk, -, shellsOk, levelOk⟩ :=
    firstFlaw?_eq_none_iff.mp (Except.ok.inj (whole.flaw?_eq.symm.trans valid))
  obtain ⟨items, rfl⟩ := isTextList_iff.mp shellsOk
  obtain ⟨s, known, rfl, named⟩ := isLevel_iff.mp levelOk
  refine ⟨Run.multiplexer_of_valid valid, ?_, ?_, ?_⟩
  · refine ⟨format, ?_⟩
    rcases isFormat_iff.mp formatOk with rfl | rfl
    · exact ⟨.yaml, whole.setting_eq (by decide) whole.format, rfl⟩
    · exact ⟨.json, whole.setting_eq (by decide) whole.format, rfl⟩
  · exact ⟨items, whole.setting_eq (by decide) whole.shells, memberTexts_texts items⟩
  · refine ⟨.text s, known, whole.setting_eq (by decide) whole.level, ?_⟩
    rw [Log.Level.ofSetting, Log.Level.ofName, named, Log.Level.ofName?_name]

/-! ### Settings over the defaults -/

/-- The settings that have a default: section, name and value. -/
def defaultSettings : List (String × String × Tree) := [
  ("tmux", "command", .null), ("document", "format", .text "yaml"),
  ("freeze", "shell_commands", Tree.texts shellCommands), ("logging", "level", .text "INFO")]

def defaultTables : List (Tree × Tree) :=
  defaultSettings.map fun (name, key, value) => tableOf name [Tree.field key value]

theorem merge_defaults (user : List (Tree × Tree)) :
    merge defaults (.mapping user) = .ok (.mapping (overlay defaultTables user)) := rfl

/-- Each section of the defaults holds one setting, which is no table. -/
theorem get?_defaultTables {name key : String} {value : Tree}
    (known : (name, key, value) ∈ defaultSettings) :
    get? defaultTables name = some (.mapping [Tree.field key value]) ∧
      ∀ table, get? [Tree.field key value] key ≠ some (.mapping table) := by
  simp only [defaultSettings, List.mem_cons, Prod.mk.injEq, List.not_mem_nil, or_false] at known
  rcases known with ⟨rfl, rfl, rfl⟩ | ⟨rfl, rfl, rfl⟩ | ⟨rfl, rfl, rfl⟩ | ⟨rfl, rfl, rfl⟩
  all_goals
    simp [defaultTables, defaultSettings, tableOf, Tree.field, Tree.texts, Tree.get?_cons,
      Tree.text?]

theorem exists_default {name : String} (known : name ∈ sectionNames) :
    ∃ key value, (name, key, value) ∈ defaultSettings := by
  simp only [sectionNames, List.mem_cons, List.not_mem_nil, or_false] at known
  rcases known with rfl | rfl | rfl | rfl
  all_goals simp [defaultSettings]

/-- A setting of the user goes before the default. -/
theorem set?_overlay {user : List (Tree × Tree)} (toml : (Tree.mapping user).IsToml)
    {name key : String} {value : Tree} (known : (name, key, value) ∈ defaultSettings)
    (table : ∀ found, get? user name = some found → ∃ inner, found = .mapping inner) :
    set? (overlay defaultTables user) name key = some ((set? user name key).getD value) := by
  obtain ⟨default, leaf⟩ := get?_defaultTables known
  have itself : get? [Tree.field key value] key = some value := by
    simp [Tree.field, Tree.get?_cons, Tree.text?]
  simp only [Tree.IsToml] at toml
  rw [set?, set?, get?_overlay toml.2, default]
  cases found : get? user name with
  | none => exact itself
  | some given =>
    obtain ⟨inner, rfl⟩ := table given found
    have innerToml := toml.1.get? found
    simp only [Tree.IsToml] at innerToml
    simp only [overlaid, get?_overlay innerToml.2]
    cases get? inner key with
    | none => exact itself
    | some own => exact congrArg some (overlaid_of_leaf leaf own)

theorem sectioned_overlay {user : List (Tree × Tree)}
    (apart : user.Pairwise fun first later => Tree.same first.1 later.1 = false) :
    Sectioned (overlay defaultTables user) ↔
      ∀ name ∈ sectionNames, ∀ value, get? user name = some value →
        ∃ inner, value = .mapping inner := by
  refine forall_congr' fun name => forall_congr' fun known => ?_
  obtain ⟨key, value, listed⟩ := exists_default known
  rw [get?_overlay apart, (get?_defaultTables listed).1]
  cases get? user name with
  | none => simp
  | some value => cases value <;> simp [overlaid]

/-- Settings merged over the defaults are whole wherever their sections are tables. -/
theorem whole_overlay {user : List (Tree × Tree)} (toml : (Tree.mapping user).IsToml)
    (sections : ∀ name ∈ sectionNames, ∀ value, get? user name = some value →
      ∃ inner, value = .mapping inner) :
    Whole (overlay defaultTables user) ((set? user "document" "format").getD (.text "yaml"))
      ((set? user "freeze" "shell_commands").getD (Tree.texts shellCommands))
      ((set? user "logging" "level").getD (.text "INFO")) where
  sectioned := by
    simp only [Tree.IsToml] at toml
    exact (sectioned_overlay toml.2).mpr sections
  format := set?_overlay toml (by simp [defaultSettings]) (sections _ (by decide))
  shells := set?_overlay toml (by simp [defaultSettings]) (sections _ (by decide))
  level := set?_overlay toml (by simp [defaultSettings]) (sections _ (by decide))

theorem forall_eq_some_iff {α : Type} {o : Option α} {d : α} {P : α → Prop} (fine : P d) :
    P (o.getD d) ↔ ∀ a, o = some a → P a := by
  cases o <;> simp [fine]

/-- A user's table says no null, so a multiplexer that it names is a text. -/
theorem command_iff {user : List (Tree × Tree)} (toml : (Tree.mapping user).IsToml) :
    isCommand ((set? user "tmux" "command").getD .null) = true ↔
      ∀ value, set? user "tmux" "command" = some value →
        ∃ s, value = .text s ∧ isBlankText s = false := by
  rw [forall_eq_some_iff (P := fun value => isCommand value = true) rfl]
  refine forall_congr' fun value => forall_congr' fun found => ?_
  have present : value ≠ .null := by
    rintro rfl
    simp only [Tree.IsToml] at toml
    unfold set? at found
    split at found
    · rename_i inner table
      have innerToml := toml.1.get? table
      simp only [Tree.IsToml] at innerToml
      exact innerToml.1.get? found
    · cases found
  rw [isCommand_iff]
  simp [present]

theorem format_iff {user : List (Tree × Tree)} :
    isFormat ((set? user "document" "format").getD (.text "yaml")) = true ↔
      ∀ value, set? user "document" "format" = some value →
        value = .text "yaml" ∨ value = .text "json" := by
  rw [forall_eq_some_iff (P := fun value => isFormat value = true) (by decide)]
  simp only [isFormat_iff]

theorem shells_iff {user : List (Tree × Tree)} :
    isTextList ((set? user "freeze" "shell_commands").getD (Tree.texts shellCommands)) = true ↔
      ∀ value, set? user "freeze" "shell_commands" = some value →
        ∃ items, value = Tree.texts items := by
  rw [forall_eq_some_iff (P := fun value => isTextList value = true)
    (isTextList_iff.mpr ⟨_, rfl⟩)]
  simp only [isTextList_iff]

theorem level_iff {user : List (Tree × Tree)} :
    isLevel ((set? user "logging" "level").getD (.text "INFO")) = true ↔
      ∀ value, set? user "logging" "level" = some value →
        ∃ s level, value = .text s ∧ upper s = Log.Level.name level := by
  rw [forall_eq_some_iff (P := fun value => isLevel value = true) (by decide)]
  simp only [isLevel_iff]

theorem commandOf_overlay {user : List (Tree × Tree)} (toml : (Tree.mapping user).IsToml)
    (sections : ∀ name ∈ sectionNames, ∀ value, get? user name = some value →
      ∃ inner, value = .mapping inner) :
    commandOf (overlay defaultTables user) = (set? user "tmux" "command").getD .null := by
  have known : ("tmux", "command", Tree.null) ∈ defaultSettings := by simp [defaultSettings]
  rw [commandOf, set?_overlay toml known (sections _ (by decide))]
  rfl

/-- A section that is no table is found first. -/
theorem flaw?_of_section {user : List (Tree × Tree)} (toml : (Tree.mapping user).IsToml)
    (sections : ¬∀ name ∈ sectionNames, ∀ value, get? user name = some value →
      ∃ inner, value = .mapping inner) :
    ∃ name found, flaw? (.mapping (overlay defaultTables user)) =
      .ok (some (.sectionKind name found)) := by
  simp only [Tree.IsToml] at toml
  obtain ⟨name, value, found⟩ := sectionFlaw?_eq_some fun none => sections
    ((sectioned_overlay toml.2).mp (sectionFlaw?_eq_none_iff.mp none))
  exact ⟨name, value, by simp only [flaw?, found]; rfl⟩

theorem accepted_iff {user : List (Tree × Tree)} (toml : (Tree.mapping user).IsToml) :
    flaw? (.mapping (overlay defaultTables user)) = .ok none ↔ Accepted user := by
  by_cases sections : ∀ name ∈ sectionNames, ∀ value, get? user name = some value →
      ∃ inner, value = .mapping inner
  · rw [(whole_overlay toml sections).flaw?_eq, Except.ok.injEq, firstFlaw?_eq_none_iff,
      commandOf_overlay toml sections, format_iff, command_iff toml, shells_iff, level_iff]
    exact ⟨fun ⟨format, command, shells, level⟩ => ⟨sections, format, command, shells, level⟩,
      fun accepted => ⟨accepted.format, accepted.command, accepted.shells, accepted.level⟩⟩
  · obtain ⟨name, value, found⟩ := flaw?_of_section toml sections
    rw [found]
    exact iff_of_false nofun fun accepted => sections accepted.sections

theorem exists_flaw? {user : List (Tree × Tree)} (toml : (Tree.mapping user).IsToml) :
    ∃ flaw, flaw? (.mapping (overlay defaultTables user)) = .ok flaw := by
  by_cases sections : ∀ name ∈ sectionNames, ∀ value, get? user name = some value →
      ∃ inner, value = .mapping inner
  · exact ⟨_, (whole_overlay toml sections).flaw?_eq⟩
  · obtain ⟨name, value, found⟩ := flaw?_of_section toml sections
    exact ⟨_, found⟩

/-! ### Refusals -/

/-- The value that a refusal would have to show holds an integer that is too long. -/
inductive Unshown (user : List (Tree × Tree)) : Prop
  | format {value : Tree} {n : Int}
      (sections : ∀ name ∈ sectionNames, ∀ value, get? user name = some value →
        ∃ inner, value = .mapping inner)
      (given : set? user "document" "format" = some value) (inside : n ∈ value.integers)
      (long : IsOverlong n)
  | level {value : Tree} {n : Int}
      (sections : ∀ name ∈ sectionNames, ∀ value, get? user name = some value →
        ∃ inner, value = .mapping inner)
      (format : ∀ value, set? user "document" "format" = some value →
        value = .text "yaml" ∨ value = .text "json")
      (command : ∀ value, set? user "tmux" "command" = some value →
        ∃ s, value = .text s ∧ isBlankText s = false)
      (shells : ∀ value, set? user "freeze" "shell_commands" = some value →
        ∃ items, value = Tree.texts items)
      (given : set? user "logging" "level" = some value) (inside : n ∈ value.integers)
      (long : IsOverlong n)

/-- Texts hold no integers. -/
theorem not_mem_integers_text {n : Int} {s : String} : n ∉ (Tree.text s).integers := by
  simp [Tree.integers]

/-- The integers of the first flaw are those of the format or, if all before it is allowed, those
of the level. -/
theorem mem_integers_of_firstFlaw? {format command shells level : Tree} {flaw : Flaw}
    (first : firstFlaw? format command shells level = some flaw) {n : Int} :
    n ∈ flaw.integers ↔ n ∈ format.integers ∨ isFormat format = true ∧
      isCommand command = true ∧ isTextList shells = true ∧ n ∈ level.integers := by
  have formatText (fine : isFormat format = true) : n ∉ format.integers := by
    rcases isFormat_iff.mp fine with rfl | rfl <;> exact not_mem_integers_text
  unfold firstFlaw? at first
  split at first
  · rename_i refused
    cases first
    simp [Flaw.integers, refused]
  rename_i known
  have format := (Bool.not_eq_false _).mp known
  split at first
  · rename_i refused
    cases first
    simp [Flaw.integers, formatText format, refused]
  rename_i called
  split at first
  · rename_i refused
    cases first
    simp [Flaw.integers, formatText format, refused]
  rename_i listed
  split at first
  · cases first
    simp [Flaw.integers, formatText format, format, called, listed]
  · cases first

theorem mem_integers_getD {o : Option Tree} {s : String} {n : Int} :
    n ∈ (o.getD (.text s)).integers ↔ ∃ value, o = some value ∧ n ∈ value.integers := by
  cases o <;> simp [not_mem_integers_text]

/-- The flaw that is found first has an integer that is too long just if the user's table holds one
where it would be shown. -/
theorem unshown_iff {user : List (Tree × Tree)} (toml : (Tree.mapping user).IsToml) {flaw : Flaw}
    (found : flaw? (.mapping (overlay defaultTables user)) = .ok (some flaw)) :
    (∃ n ∈ flaw.integers, IsOverlong n) ↔ Unshown user := by
  by_cases sections : ∀ name ∈ sectionNames, ∀ value, get? user name = some value →
      ∃ inner, value = .mapping inner
  · have first := Except.ok.inj ((whole_overlay toml sections).flaw?_eq.symm.trans found)
    simp only [mem_integers_of_firstFlaw? first, mem_integers_getD,
      commandOf_overlay toml sections, command_iff toml, format_iff, shells_iff]
    constructor
    · rintro ⟨n, ⟨value, given, member⟩ | ⟨format, command, shells, value, given, member⟩, long⟩
      · exact .format sections given member long
      · exact .level sections format command shells given member long
    · rintro (⟨-, given, member, long⟩ | ⟨-, format, command, shells, given, member, long⟩)
      · exact ⟨_, .inl ⟨_, given, member⟩, long⟩
      · exact ⟨_, .inr ⟨format, command, shells, _, given, member⟩, long⟩
  · obtain ⟨name, value, first⟩ := flaw?_of_section toml sections
    cases first.symm.trans found
    refine iff_of_false nofun ?_
    rintro (⟨tables, -, -, -⟩ | ⟨tables, -⟩)
    all_goals exact sections tables

/-- A flaw is reported, unless an integer in its words is too long. -/
theorem check_of_flaw {settings : Tree} {flaw : Flaw} (path : String)
    (found : flaw? settings = .ok (some flaw)) :
    ((¬∃ n ∈ flaw.integers, IsOverlong n) ∧
      check path settings = .ok (.error (flaw.issue path))) ∨
    (∃ n ∈ flaw.integers, IsOverlong n) ∧
      check path settings = .error (.fault .unwritable) := by
  rcases ensureWritable_outcome flaw.integers with ⟨writable, done⟩ | ⟨n, member, long, failed⟩
  · refine .inl ⟨?_, by simp only [check, found, ok_bind, done]; rfl⟩
    rintro ⟨n, member, long⟩
    exact not_isOverlong_iff.mpr (writable n member) long
  · exact .inr ⟨⟨n, member, isOverlong_iff.mpr long⟩,
      by simp only [check, found, ok_bind, failed]; rfl⟩

/-- A check of settings over the defaults ends with the settings, with an issue, or with one that
cannot be written. -/
theorem check_outcome {user : List (Tree × Tree)} (toml : (Tree.mapping user).IsToml)
    (path : String) {merged : Tree} (laid : merge defaults (.mapping user) = .ok merged) :
    (flaw? merged = .ok none ∧ check path merged = .ok (.ok merged)) ∨
    (flaw? merged ≠ .ok none ∧ (∃ issue, check path merged = .ok (.error issue)) ∧
      ¬Unshown user) ∨
    (flaw? merged ≠ .ok none ∧ check path merged = .error (.fault .unwritable) ∧
      Unshown user) := by
  obtain rfl := Except.ok.inj ((merge_defaults user).symm.trans laid)
  obtain ⟨flaw, found⟩ := exists_flaw? toml
  cases flaw with
  | none => exact .inl ⟨found, by rw [check, found]; rfl⟩
  | some flaw =>
    have flawed : flaw? (.mapping (overlay defaultTables user)) ≠ .ok none := by
      rw [found]
      exact nofun
    rcases check_of_flaw path found with ⟨short, told⟩ | ⟨long, failed⟩
    · exact .inr (.inl ⟨flawed, ⟨_, told⟩, mt (unshown_iff toml found).mpr short⟩)
    · exact .inr (.inr ⟨flawed, failed, (unshown_iff toml found).mp long⟩)

/-- Whatever table the user writes, merging it over the defaults and checking the outcome ends with
the settings or with an issue, unless the issue would have to show an integer that is too long. It
ends with the settings just if the user's table may say what it says, and then everything that is
looked at later is there and can be used. -/
theorem check_merged {user : List (Tree × Tree)} (toml : (Tree.mapping user).IsToml)
    (path : String) :
    ∃ merged, merge defaults (.mapping user) = .ok merged ∧
      (check path merged = .ok (.ok merged) ∧ Accepted user ∧ Usable merged ∨
        (∃ issue, check path merged = .ok (.error issue)) ∧ ¬Accepted user ∧ ¬Unshown user ∨
        check path merged = .error (.fault .unwritable) ∧ ¬Accepted user ∧ Unshown user) := by
  refine ⟨_, merge_defaults user, ?_⟩
  rcases check_outcome toml path (merge_defaults user) with
    ⟨valid, told⟩ | ⟨flawed, told, shown⟩ | ⟨flawed, failed, unshown⟩
  · have accepted := (accepted_iff toml).mp valid
    exact .inl ⟨told, accepted, (whole_overlay toml accepted.sections).usable valid⟩
  · exact .inr (.inl ⟨told, mt (accepted_iff toml).mpr flawed, shown⟩)
  · exact .inr (.inr ⟨failed, mt (accepted_iff toml).mpr flawed, unshown⟩)

/-- A multiplexer with flags, another format, an own list of shells, a level in small letters, and
a table that no setting is read from. -/
def namedSettings : List (Tree × Tree) := [
  tableOf "tmux" [Tree.field "command" (.text " tmux -2 ")],
  tableOf "document" [Tree.field "format" (.text "json"), Tree.field "since" (.date ⟨2024, 2, 29⟩)],
  tableOf "freeze" [Tree.field "shell_commands" (Tree.texts ["nu"])],
  tableOf "logging" [Tree.field "level" (.text "debug")],
  tableOf "theme" [Tree.field "width" (.int 80)]]

theorem check_merged_named : (Tree.mapping namedSettings).IsToml ∧
    ∃ merged, merge defaults (.mapping namedSettings) = .ok merged ∧
      (check "config.toml" merged = .ok (.ok merged) ∧ Accepted namedSettings ∧ Usable merged ∨
        (∃ issue, check "config.toml" merged = .ok (.error issue)) ∧ ¬Accepted namedSettings ∧
          ¬Unshown namedSettings ∨
        check "config.toml" merged = .error (.fault .unwritable) ∧ ¬Accepted namedSettings ∧
          Unshown namedSettings) := by
  have toml : (Tree.mapping namedSettings).IsToml := by
    simp [namedSettings, tableOf, Tree.field, Tree.texts, Tree.IsToml, Tree.HaveToml, Tree.AreToml,
      Tree.same_text, Tree.text?]
  exact ⟨toml, check_merged toml "config.toml"⟩

/-- The format is an integer that is too long. -/
def overlongSettings : List (Tree × Tree) :=
  [tableOf "document" [Tree.field "format" (.int firstOverlong)]]

/-- It is refused, but the refusal cannot be written. -/
theorem check_overlongSettings : (Tree.mapping overlongSettings).IsToml ∧
    ¬Accepted overlongSettings ∧
    ∃ merged, merge defaults (.mapping overlongSettings) = .ok merged ∧
      check "config.toml" merged = .error (.fault .unwritable) := by
  have toml : (Tree.mapping overlongSettings).IsToml := by
    simp [overlongSettings, tableOf, Tree.field, Tree.IsToml, Tree.HaveToml]
  have sections : ∀ name ∈ sectionNames, ∀ value, get? overlongSettings name = some value →
      ∃ inner, value = .mapping inner := by
    simp [sectionNames, overlongSettings, tableOf, Tree.field, Tree.get?_cons, Tree.text?]
  have given : set? overlongSettings "document" "format" = some (.int firstOverlong) := by
    simp [set?, overlongSettings, tableOf, Tree.field, Tree.get?_cons, Tree.text?]
  have flawed : flaw? (.mapping (overlay defaultTables overlongSettings)) =
      .ok (some (.formatUnknown (.int firstOverlong))) := by
    rw [(whole_overlay toml sections).flaw?_eq, given]
    rfl
  have inside : firstOverlong ∈ (Flaw.formatUnknown (.int firstOverlong)).integers :=
    List.mem_singleton_self _
  refine ⟨toml, fun accepted => ?_, _, merge_defaults _, ?_⟩
  · exact absurd (accepted.format (.int firstOverlong) given) (by simp)
  · rcases check_of_flaw "config.toml" flawed with ⟨short, -⟩ | ⟨-, failed⟩
    · exact absurd ⟨_, inside, isOverlong_firstOverlong⟩ short
    · exact failed

end SessionPlan.Settings
