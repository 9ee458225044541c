import SessionPlan.Proofs.Document.Homes
import SessionPlan.Proofs.Run.Ends
import SessionPlan.Proofs.Variables.Cut

/-! What the surroundings have to do with compiling once settings are given. The variables are given
too, yet `~` is resolved at the home directory of the surroundings. -/
namespace SessionPlan.Run
open SessionPlan.Path

/-- Surroundings that leave the home directory open. What is compiled in them has its directories as
the document writes them. -/
def anywhere : Surroundings := ⟨[("HOME", openHome)], "/", []⟩

theorem home_anywhere : anywhere.home = openHome := by decide

variable {settings document : Tree} {values : Variables} {wishes : Document.Wishes}

theorem keepsEmpty_inHome (home : String) : KeepsEmpty (inHome home) := ⟨fun _ => inHome_eq_empty⟩

/-- Directories are resolved against the home directory, and nothing else is looked for there. -/
theorem result_compile_home (s : Surroundings) (settings document : Tree) (values : Variables)
    (wishes : Document.Wishes) :
    (compile s (some settings) values wishes document).result =
      (·.mapDirectories (inHome s.home)) <$>
        (compile anywhere (some settings) values wishes document).result := by
  have chosen (p : Project) : multiplexer settings (p.mapDirectories (inHome s.home)) =
      multiplexer settings p := rfl
  rw [result_compile_eq, result_compile_eq, home_anywhere, Document.normalize_eq_map,
    Noted.result_map, bind_map_left]
  simp only [chosen, Project.plan_mapDirectories (keepsEmpty_inHome s.home), ← map_bind]
  cases (Document.normalize openHome values wishes document).result >>= fun p =>
    multiplexer settings p >>= fun override => p.plan override <;> rfl

/-- Two home directories are told apart by a plan that opens a pane at home, and by no other. -/
theorem inHome_plan {home other : String} {plan : Plan} :
    plan.mapDirectories (inHome home) = plan.mapDirectories (inHome other) ↔
      root home = root other ∨ ∀ directory ∈ plan.directories, ¬AtHome directory := by
  rw [plan.mapDirectories_inj]
  constructor
  · intro same
    by_cases away : ∀ directory ∈ plan.directories, ¬AtHome directory
    · exact .inr away
    · simp only [not_forall, not_not] at away
      obtain ⟨directory, opened, at_home⟩ := away
      exact .inl ((inHome_eq_inHome at_home).mp (same directory opened))
  · intro alike directory opened
    by_cases at_home : AtHome directory
    · exact (inHome_eq_inHome at_home).mpr
        (alike.resolve_right fun away => away directory opened at_home)
    · rw [inHome_of_not_atHome at_home, inHome_of_not_atHome at_home]

/-! ### Two spellings -/

theorem expand_tilde (values : Variables) (rest : String) :
    (expand values ("~/" ++ rest)).toList = '~' :: '/' :: (expand values rest).toList := by
  have chars : ("~/" ++ rest).toList = '~' :: '/' :: rest.toList := by simp
  rw [expand, expand, String.toList_join, String.toList_join, Segment.ofText, chars, Segment.scan,
    if_neg (by decide), Segment.scan, if_neg (by decide)]
  simp [Segment.value, Segment.ofText]

theorem expand_home {values : Variables} {given : String}
    (named : values.get? "HOME" = some given) (some : given ≠ "") (rest : String) :
    (expand values ("$HOME/" ++ rest)).toList =
      given.toList ++ '/' :: (expand values rest).toList := by
  have chars : ("$HOME/" ++ rest).toList = '$' :: ("HOME".toList ++ '/' :: rest.toList) := by
    simp
  have isName : Segment.IsName "HOME".toList := by
    rw [show "HOME".toList = ['H', 'O', 'M', 'E'] by simp]
    refine .inl ⟨.inl rfl, ?_⟩
    simp only [List.forall_mem_cons]
    exact ⟨.inl rfl, .inl rfl, .inl rfl, nofun⟩
  have value : Segment.value values (.reference (String.ofList "HOME".toList) none) = given := by
    rw [String.ofList_toList, Segment.value, named, Option.getD_some, if_neg (by simpa using some)]
  rw [expand, expand, String.toList_join, String.toList_join, Segment.ofText, chars,
    isName.scan_reference (by decide), Segment.scan, if_neg (by decide), List.map_cons, value]
  simp [Segment.value, Segment.ofText]

/-- The two are the same directory if the variable names the home directory. -/
theorem directory_tilde_eq {values : Variables} {home given : String}
    (named : values.get? "HOME" = some given) (absolute : IsAbsolute given) (rest path : String) :
    Document.directory home path (.text (expand values ("~/" ++ rest))) =
        Document.directory home path (.text (expand values ("$HOME/" ++ rest))) ↔
      root home = given.toList := by
  have some : given ≠ "" := by
    rintro rfl
    cases absolute
  have tilde : expand values ("~/" ++ rest) =
      String.ofList ('~' :: '/' :: (expand values rest).toList) := by
    rw [← String.toList_inj, expand_tilde, String.toList_ofList]
  have spelled := expand_home named some rest
  have settled : (expand values ("$HOME/" ++ rest)).toList.head? ≠ .some '~' := by
    obtain ⟨tail, chars⟩ := List.head?_eq_some_iff.mp absolute
    rw [spelled, chars, List.cons_append, List.head?_cons]
    decide
  have read (text : String) {directory : String} (found : expandHome? home text = .some directory) :
      Document.directory home path (.text text) = .ok directory := by
    rw [Document.directory, Tree.written_text, ok_bind, found]
    · rfl
    · intro null
      cases null
  rw [read _ (expandHome?_of_head? settled), tilde, read _ (expandHome?_tilde (.inr rfl)),
    Except.ok.injEq, ← String.toList_inj, spelled, toList_atHome, String.toList_ofList,
    if_neg (List.append_ne_nil_of_right_ne_nil _ (List.cons_ne_nil _ _)), List.append_left_inj]

/-- Given settings, what is compiled hangs on the document, the variables and the wishes, and on
the home directory of the surroundings: the directories at home that the plan opens panes in are
resolved against it. So two surroundings give the same result just if they have the same home
directory, but for slashes at its end, or if no pane is opened at home. Whatever home directory the
variables name, it does not count: a directory below `~` is the one below `$HOME` just if the two
are the same. -/
theorem compile_homes (settings document : Tree) (values : Variables) (wishes : Document.Wishes) :
    (∀ s, (compile s (some settings) values wishes document).result =
      (·.mapDirectories (inHome s.home)) <$>
        (compile anywhere (some settings) values wishes document).result) ∧
    (∀ s s', (compile s (some settings) values wishes document).result =
        (compile s' (some settings) values wishes document).result ↔
      root s.home = root s'.home ∨
        ∀ plan, (compile anywhere (some settings) values wishes document).result = .ok plan →
          ∀ directory ∈ plan.directories, ¬AtHome directory) ∧
    ∀ (s : Surroundings) given, values.get? "HOME" = some given → IsAbsolute given →
      ∀ rest path, Document.directory s.home path (.text (expand values ("~/" ++ rest))) =
          Document.directory s.home path (.text (expand values ("$HOME/" ++ rest))) ↔
        root s.home = given.toList := by
  have resolved (s : Surroundings) := result_compile_home s settings document values wishes
  refine ⟨resolved, fun s s' => ?_, fun s given named absolute rest path =>
    directory_tilde_eq named absolute rest path⟩
  rw [resolved s, resolved s']
  generalize (compile anywhere (some settings) values wishes document).result = unresolved
  cases unresolved with
  | error stop =>
    rw [Except.map_error, Except.map_error]
    exact iff_of_true rfl (.inr nofun)
  | ok plan =>
    rw [Except.map_ok, Except.map_ok, Except.ok.injEq, inHome_plan]
    simp only [Except.ok.injEq, forall_eq']

/-! ### Two homes -/

/-- A session in one directory. -/
def directoryDocument (directory : String) : Tree :=
  .mapping [(.text "name", .text "dev"), (.text "root", .text directory)]

def homeMachine (home : String) : Surroundings := ⟨[("HOME", home)], "/", []⟩

/-- Variables with a home directory of their own. -/
def servedVariables : Variables := .ofEnvironment [] [("HOME", "/srv/app")]

/-- The directories that panes are opened in. -/
def opened? (home directory : String) : Option (List String) :=
  (compile (homeMachine home) (some Settings.defaults) servedVariables {}
    (directoryDocument directory)).result.toOption.map Plan.directories

theorem compile_homes_served :
    servedVariables.get? "HOME" = some "/srv/app" ∧ IsAbsolute "/srv/app" ∧
    (compile (homeMachine "/home/dev") (some Settings.defaults) servedVariables {}
        (directoryDocument "/src")).result =
      (compile (homeMachine "/home/ann") (some Settings.defaults) servedVariables {}
        (directoryDocument "/src")).result ∧
    Document.directory "/srv/app" "root" (.text (expand servedVariables "~/src")) =
      Document.directory "/srv/app" "root" (.text (expand servedVariables "$HOME/src")) := by
  obtain ⟨-, alike, -⟩ := compile_homes Settings.defaults (directoryDocument "/src")
    servedVariables {}
  obtain ⟨-, -, spelled⟩ := compile_homes Settings.defaults (directoryDocument "~/src")
    servedVariables {}
  refine ⟨rfl, rfl, (alike _ _).mpr (.inr fun plan compiled directory member => ?_),
    (spelled (homeMachine "/srv/app") "/srv/app" rfl rfl "src" "root").mpr (by decide)⟩
  have directories : (compile anywhere (some Settings.defaults) servedVariables {}
      (directoryDocument "/src")).result.toOption.map Plan.directories = some ["/src"] := by
    decide +kernel
  rw [compiled] at directories
  obtain rfl : directory = "/src" := by
    rw [Option.some.inj directories] at member
    exact List.mem_singleton.mp member
  rintro ⟨rest, -, chars⟩
  cases chars

/-- The variables name a home directory, and `~` is another one. -/
theorem compile_two_homes :
    IsAbsolute (homeMachine "/home/dev").home ∧ IsAbsolute (homeMachine "/home/ann").home ∧
    (compile (homeMachine "/home/dev") (some Settings.defaults) servedVariables {}
        (directoryDocument "~/src")).result ≠
      (compile (homeMachine "/home/ann") (some Settings.defaults) servedVariables {}
        (directoryDocument "~/src")).result ∧
    opened? "/home/dev" "~/src" = some ["/home/dev/src"] ∧
    opened? "/home/dev" "$HOME/src" = some ["/srv/app/src"] := by
  have dev : opened? "/home/dev" "~/src" = some ["/home/dev/src"] := by decide +kernel
  have ann : opened? "/home/ann" "~/src" = some ["/home/ann/src"] := by decide +kernel
  refine ⟨rfl, rfl, fun same => ?_, dev, by decide +kernel⟩
  rw [opened?, same, ← opened?, ann] at dev
  exact absurd dev (by decide)

end SessionPlan.Run
