import SessionPlan.Proofs.Document.Frame
import SessionPlan.Proofs.Document.Mentions
import SessionPlan.Proofs.Plan.Roles

/-! Which window a session starts in if its document names one. A name stands for the first window
that bears it; a name of digits only is read as an index. -/
namespace SessionPlan
open SessionPlan.Text

namespace Document

/-! ### The startup window of a document -/

/-- The startup window has a say in nothing but itself. -/
theorem projectFrame_startup {home : String} {wishes : Wishes}
    {fields fields' : ProjectField → Option Tree} (unset : fields .startupWindow = none)
    (noPane : fields .startupPane = none)
    (same : ∀ f, f ≠ .startupWindow → fields' f = fields f) {selected : Option Selector}
    (read : selector "startup_window" (orNull fields' .startupWindow) = .ok selected) :
    projectFrame home wishes fields' =
      (fun frame => { frame with startupWindow := selected, startupPane := none }) <$>
        projectFrame home wishes fields := by
  have window : selector "startup_window" (orNull fields .startupWindow) = .ok none := by
    rw [orNull, unset]
    rfl
  have pane : count "startup_pane" (orNull fields .startupPane) = .ok none := by
    rw [orNull, noPane]
    rfl
  simp only [orNull] at window pane read
  simp (disch := decide) only [projectFrame, sessionName, attachment, orNull, same]
  simp only [window, pane, read, ok_bind, map_bind, map_pure]

/-- The document without the two fields of the startup selection. -/
def NoStartup (entries : List (Tree × Tree)) : Prop :=
  ∀ e ∈ entries, e.1 ≠ .text "startup_window" ∧ e.1 ≠ .text "startup_pane"

theorem NoStartup.chosen {entries : List (Tree × Tree)} (unset : NoStartup entries) :
    (∀ q ∈ plainPairs entries, projectVocabulary.field? q.key ≠ some .startupWindow) ∧
      chosen projectVocabulary (plainPairs entries) .startupWindow = none ∧
      chosen projectVocabulary (plainPairs entries) .startupPane = none := by
  have keys : ∀ q ∈ plainPairs entries, q.key ≠ .text "startup_window" ∧
      q.key ≠ .text "startup_pane" := by
    intro q member
    obtain ⟨e, known, rfl⟩ := List.mem_map.mp member
    exact unset e known
  have window : ∀ q ∈ plainPairs entries, projectVocabulary.field? q.key ≠ some .startupWindow :=
    fun q member named => (keys q member).1 (key_of_field? complete_project.listed rfl named)
  have pane : ∀ q ∈ plainPairs entries, projectVocabulary.field? q.key ≠ some .startupPane :=
    fun q member named => (keys q member).2 (key_of_field? complete_project.listed rfl named)
  refine ⟨window, ?_, ?_⟩
  · rw [Document.chosen, winner?_eq_none complete_project.listed window]
    rfl
  · rw [Document.chosen, winner?_eq_none complete_project.listed pane]
    rfl

variable {home : String} {wishes : Wishes} {before after : List (Tree × Tree)} {p : Project}

/-- The document with a startup window, wherever it is put. -/
def withStartup (before after : List (Tree × Tree)) (s : String) : Tree :=
  .mapping (before ++ (.text "startup_window", .text s) :: after)

theorem withStartup_read (readable : ReadableRoot (.mapping (before ++ after)))
    (unset : NoStartup (before ++ after)) (s : String) :
    ReadableRoot (withStartup before after s) ∧
      ∀ f, chosen projectVocabulary (rootPairs (withStartup before after s)) f =
        if f = .startupWindow then some (.text s)
        else chosen projectVocabulary (plainPairs (before ++ after)) f := by
  have pairs : rootPairs (withStartup before after s) =
      plainPairs before ++ ⟨.text "startup_window", .text s, false⟩ :: plainPairs after := by
    simp [rootPairs, withStartup, plainPairs]
  have parts : plainPairs (before ++ after) = plainPairs before ++ plainPairs after := by
    simp [plainPairs]
  have own : Pair.occurrence? projectVocabulary ⟨.text "startup_window", .text s, false⟩ =
      some ⟨.startupWindow, 1, "startup_window", .text s⟩ :=
    occurrence?_of_name rfl rfl (by decide)
  have values (f : ProjectField) := chosen_insert complete_project.listed own
    (by rw [← parts]; exact unset.chosen.1) f
  rw [pairs, parts]
  refine ⟨⟨⟨_, rfl⟩, ?_, ?_⟩, values⟩
  · rw [pairs]
    intro q member
    rcases List.mem_append.mp member with early | late
    · exact readable.known q (by rw [rootPairs, parts]; exact List.mem_append_left _ early)
    · rcases List.mem_cons.mp late with rfl | late
      · rw [field?_eq_some.mpr ⟨_, own, rfl⟩]
        rfl
      · exact readable.known q (by rw [rootPairs, parts]; exact List.mem_append_right _ late)
  · obtain ⟨f, known, given⟩ := List.any_eq_true.mp readable.content
    refine List.any_eq_true.mpr ⟨f, known, ?_⟩
    rw [rootPairs, parts] at given
    rw [pairs, values]
    split
    · rfl
    · exact given

/-- With a startup window, the project is built as before, if only there is such a window. -/
theorem build_startup (built : (build home wishes (.mapping (before ++ after))).result = .ok p)
    (unset : NoStartup (before ++ after)) {s : String} {selected : Selector}
    (read : selector "startup_window" (.text s) = .ok (some selected)) :
    (build home wishes (withStartup before after s)).result =
      if (p.windows.find? selected.selects).isSome then
        .ok { p with startupWindow := some selected }
      else reject (.startupWindowUnknown selected) "startup_window" := by
  obtain ⟨readable, given⟩ := build_eq_ok.mp built
  obtain ⟨again, values⟩ := withStartup_read readable unset s
  obtain ⟨frame, list, framed, listed, done⟩ := projectOfFields_eq_ok.mp given
  obtain ⟨-, noWindow, noPane⟩ := unset.chosen
  have same (f : ProjectField) (other : f ≠ .startupWindow) := (values f).trans (if_neg other)
  have unselected : projectFrame home wishes _ = _ :=
    projectFrame_startup noWindow noPane (fun _ _ => rfl)
      (by rw [orNull, noWindow]; rfl : selector _ _ = .ok none)
  have selecting : projectFrame home wishes _ = _ :=
    projectFrame_startup noWindow noPane same
      (by rw [orNull, values, if_pos rfl]; exact read : selector _ _ = .ok (some selected))
  rw [rootPairs] at framed listed
  rw [framed] at unselected selecting
  have noPane : frame.startupPane = none := congrArg Project.startupPane (Except.ok.inj unselected)
  rw [← noPane] at selecting
  have windowsValue : orNull (chosen projectVocabulary (rootPairs (withStartup before after s)))
      .windows = orNull (chosen projectVocabulary (plainPairs (before ++ after))) .windows := by
    rw [orNull, same .windows (by decide)]
    rfl
  obtain rfl := projectWith_eq_ok done
  rw [(build_of_readable again home wishes).1, projectOfFields_of_frame selecting, windowsValue,
    Noted.bind_of_ok listed, Noted.result_liftM, projectWith, checkStartup, Project.window?]
  dsimp only
  rw [noPane]
  cases list.find? selected.selects with
  | none => exact reject_bind _ _ _
  | some first => rfl

end Document

/-! ### Windows by their names -/

/-- The project with another startup window. -/
def Project.startingAt (p : Project) (selected : Selector) : Project :=
  { p with startupWindow := some selected }

namespace Document

variable {home : String} {wishes : Wishes} {before after : List (Tree × Tree)} {p : Project}

/-- With the startup window `s`, the document is built to the project that it was, but for what it
selects. That is the window `first`, and every plan selects it. -/
structure StartsAt (home : String) (wishes : Wishes) (before after : List (Tree × Tree))
    (p : Project) (s : String) (selected : Selector) (first : Window) : Prop where
  built : (build home wishes (withStartup before after s)).result = .ok (p.startingAt selected)
  found : (p.startingAt selected).window? (p.startingAt selected).startupWindow = some first
  shown : ∀ override plan, (p.startingAt selected).plan override = .ok plan →
    plan.groups.filter (·.role = .select) =
      [((p.startingAt selected).planner plan.sessionName plan.tmuxArgs).selecting first]

theorem startsAt_of_found
    (built : (build home wishes (.mapping (before ++ after))).result = .ok p)
    (unset : NoStartup (before ++ after)) {s : String} {selected : Selector} {first : Window}
    (read : selector "startup_window" (.text s) = .ok (some selected))
    (found : p.windows.find? selected.selects = some first) :
    StartsAt home wishes before after p s selected first := by
  have again := build_startup built unset read
  rw [found, Option.isSome_some, if_pos rfl] at again
  have shown : (p.startingAt selected).window? (p.startingAt selected).startupWindow =
      some first := found
  refine ⟨again, shown, fun override plan planned => ?_⟩
  obtain ⟨session, args, -, -, -, rfl⟩ :=
    (Project.plan_eq_ok (build_wellFormed again) shown).mp planned
  exact Planner.filter_select _ first

theorem selector_text {s : String} (letters : isDigits s = false) (path : String) :
    selector path (.text s) = .ok (some (.name s)) := by
  simp [selector, letters]

theorem selector_decimals {s : String} (digits : isDigits s = true)
    (decimals : s.toList.all isDecimal = true) (few : s.toList.length ≤ digitLimit)
    (path : String) :
    selector path (.text s) = .ok (some (.index (decimalsValue 0 s.toList))) := by
  have read : digitsInteger s = .ok (decimalsValue 0 s.toList : Int) := by
    rw [digitsInteger_eq_ok, integer?_digits digits, if_pos ⟨few, decimals⟩]
  simp only [selector, digits, if_true, read]
  rfl

theorem isDigits_of_decimals {s : String} (filled : s ≠ "")
    (decimals : s.toList.all isDecimal = true) : isDigits s = true := by
  simp only [List.all_eq_true] at decimals
  simp only [isDigits, Bool.and_eq_true, Bool.not_eq_true', String.isEmpty_eq_false_iff,
    List.all_eq_true]
  exact ⟨filled, fun c member => by rw [isDigit, decimals c member, Bool.true_or]⟩

/-- Among the windows of a project that was built, an index finds the one window that has it. -/
theorem find?_index {home : String} {p : Project} (formed : p.WellFormed home) {w : Window}
    (member : w ∈ p.windows) : p.windows.find? (Selector.index w.index).selects = some w := by
  have itself : (Selector.index w.index).selects w = true := by simp [Selector.selects]
  obtain ⟨found, first⟩ := Option.isSome_iff_exists.mp
    (List.find?_isSome.mpr ⟨w, member, itself⟩)
  have equal : found.index = w.index := by simpa [Selector.selects] using List.find?_some first
  obtain ⟨i, here⟩ := List.mem_iff_getElem?.mp member
  obtain ⟨j, there⟩ := List.mem_iff_getElem?.mp (List.mem_of_find?_eq_some first)
  have number := (formed.windows i w here).index
  have number' := (formed.windows j found there).index
  obtain rfl : i = j := by omega
  rw [first, ← here, there]

/-- Every window of a project can be chosen by its name, unless that is made of digits only: then
the first window of the name is selected. A name of decimals is an index instead, in the digits of
any script, if there are not too many of them. The window that has this index is selected, whatever
its name, and if there is none the document is rejected. -/
theorem startup_by_name
    (built : (build home wishes (.mapping (before ++ after))).result = .ok p)
    (unset : NoStartup (before ++ after)) {s : String} (named : ∃ w ∈ p.windows, w.name = some s) :
    (isDigits s = false → ∃ earlier first later, p.windows = earlier ++ first :: later ∧
      first.name = some s ∧ (∀ other ∈ earlier, other.name ≠ some s) ∧
      StartsAt home wishes before after p s (.name s) first) ∧
    (s.toList.all isDecimal = true → s.toList.length ≤ digitLimit →
      (∀ w ∈ p.windows, w.index = decimalsValue 0 s.toList →
        StartsAt home wishes before after p s (.index w.index) w) ∧
      ((∀ w ∈ p.windows, w.index ≠ decimalsValue 0 s.toList) →
        (build home wishes (withStartup before after s)).result = .error (.problem
          ⟨.startupWindowUnknown (.index (decimalsValue 0 s.toList)), "startup_window"⟩))) := by
  have formed := build_wellFormed built
  obtain ⟨w, member, name⟩ := named
  constructor
  · intro letters
    have itself : (Selector.name s).selects w = true := by simp [Selector.selects, name]
    obtain ⟨first, found⟩ := Option.isSome_iff_exists.mp
      (List.find?_isSome.mpr ⟨w, member, itself⟩)
    obtain ⟨bears, earlier, later, windows, others⟩ := List.find?_eq_some_iff_append.mp found
    refine ⟨earlier, first, later, windows, by simpa [Selector.selects] using bears,
      fun other early => by simpa [Selector.selects] using others other early,
      startsAt_of_found built unset (selector_text letters _) found⟩
  · intro decimals few
    obtain ⟨number, window⟩ := formed.window member
    have digits := isDigits_of_decimals (window.name s name).ne_empty decimals
    have numeral : integer? s = some (decimalsValue 0 s.toList : Int) := by
      rw [integer?_digits digits, if_pos ⟨few, decimals⟩]
    have read := selector_decimals digits decimals few "startup_window"
    constructor
    · intro other there index
      rw [← index] at read
      exact startsAt_of_found built unset read (find?_index formed there)
    · intro missing
      have nothing : p.windows.find? (Selector.index (decimalsValue 0 s.toList)).selects = none :=
        List.find?_eq_none.mpr fun other there => by simpa [Selector.selects] using missing other there
      rw [build_startup built unset read, nothing]
      refine reject_eq (fun n told => ?_) _
      obtain rfl := List.mem_singleton.mp told
      exact isWritable_of_integer? numeral

/-- Two windows of one name, after another one. -/
def webEntries : List (Tree × Tree) := [
  (.text "name", .text "dev"), (.text "windows", .list [.mapping [(.text "name", .text "api")],
    .mapping [(.text "name", .text "web")], .mapping [(.text "name", .text "web")]])]

def webProject : Project where
  sessionName := some "dev"
  windows := [{ name := some "api" }, { index := 2, name := some "web" },
    { index := 3, name := some "web" }]

theorem build_webEntries : (build "/home/ann" {} (.mapping webEntries)).result = .ok webProject :=
  eq_ok_of_toOption (by decide +kernel)

theorem startup_by_name_web :
    (build "/home/ann" {} (.mapping webEntries)).result = .ok webProject ∧ NoStartup webEntries ∧
    (∃ w ∈ webProject.windows, w.name = some "web") ∧
    StartsAt "/home/ann" {} webEntries [] webProject "web" (.name "web")
      { index := 2, name := some "web" } := by
  have unset : NoStartup (webEntries ++ []) := by simp [NoStartup, webEntries]
  have named : ∃ w ∈ webProject.windows, w.name = some "web" := by simp [webProject]
  have built : (build "/home/ann" {} (.mapping (webEntries ++ []))).result = .ok webProject := by
    rw [List.append_nil]
    exact build_webEntries
  obtain ⟨byName, -⟩ := startup_by_name built unset named
  obtain ⟨earlier, first, later, -, -, -, starts⟩ := byName (by decide)
  have second : some first = some { index := 2, name := some "web" } :=
    starts.found.symm.trans (by decide)
  exact ⟨build_webEntries, by rwa [List.append_nil] at unset, named, Option.some.inj second ▸ starts⟩

/-- A window with a number for a name, which is not its index. -/
def numeralEntries : List (Tree × Tree) := [
  (.text "name", .text "dev"), (.text "windows", .list [.mapping [(.text "name", .text "2024")]])]

def numeralProject : Project where
  sessionName := some "dev"
  windows := [{ name := some "2024" }]

/-- It cannot be chosen by this name. -/
theorem startup_numeral_missed :
    (build "/home/ann" {} (.mapping numeralEntries)).result = .ok numeralProject ∧
    NoStartup numeralEntries ∧ (∃ w ∈ numeralProject.windows, w.name = some "2024") ∧
    (∀ w ∈ numeralProject.windows, ofInt w.index ≠ "2024") ∧
    (build "/home/ann" {} (withStartup numeralEntries [] "2024")).result =
      .error (.problem ⟨.startupWindowUnknown (.index 2024), "startup_window"⟩) := by
  have built : (build "/home/ann" {} (.mapping (numeralEntries ++ []))).result =
      .ok numeralProject := eq_ok_of_toOption (by decide +kernel)
  have unset : NoStartup numeralEntries := by simp [NoStartup, numeralEntries]
  have read : selector "startup_window" (.text "2024") = .ok (some (.index 2024)) :=
    selector_decimals (by decide) (by decide) (by decide) _
  refine ⟨built, unset, by simp [numeralProject], by decide, ?_⟩
  rw [build_startup built (by rwa [List.append_nil]) read]
  rfl

end Document
end SessionPlan
