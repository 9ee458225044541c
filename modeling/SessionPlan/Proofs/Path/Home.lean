import SessionPlan.Path
import Mathlib.Data.List.DropRight

/-! Directories at home. A directory that was resolved against an absolute home directory is fixed
by resolving it again, and writing it with `~` loses nothing. -/
namespace SessionPlan.Path
open SessionPlan.Text

/-- A home directory as programs are given it. -/
def IsAbsolute (path : String) : Prop := path.toList.head? = some '/'

/-- A directory that `~` was resolved in, if it had one. -/
def Resolved (home directory : String) : Prop := ∃ raw, expandHome? home raw = some directory

/-- The home directory without the slashes at its end: empty for the root directory. -/
def root (home : String) : List Char := home.toList.rdropWhile (· == '/')

theorem toList_atHome (home rest : String) :
    (atHome home rest).toList =
      if root home ++ rest.toList = [] then ['/'] else root home ++ rest.toList := by
  have path : (dropTrailing '/' home ++ rest).toList = root home ++ rest.toList := by
    simp [dropTrailing, root, List.rdropWhile]
  have empty : (dropTrailing '/' home ++ rest).isEmpty ↔ root home ++ rest.toList = [] := by
    rw [← path, String.isEmpty_iff, String.toList_eq_nil_iff]
  unfold atHome
  by_cases h : root home ++ rest.toList = []
  · simp only [empty.mpr h, if_true, if_pos h]; rfl
  · simp only [Bool.eq_false_iff.mpr (mt empty.mp h), Bool.false_eq_true, if_false, if_neg h, path]

theorem root_homeDirectory (home : String) :
    dropTrailing '/' (homeDirectory home) = String.ofList (root home) := by
  have chars := toList_atHome home ""
  simp only [String.toList_empty, List.append_nil] at chars
  unfold dropTrailing homeDirectory
  rw [chars]
  by_cases h : root home = []
  · simp [h]
  · rw [if_neg h]
    exact congrArg String.ofList (List.rdropWhile_idempotent _ _)

theorem head?_root {home : String} (absolute : IsAbsolute home) (h : root home ≠ []) :
    (root home).head? = some '/' := by
  obtain ⟨rest, whole⟩ := List.rdropWhile_prefix (· == '/') (l := home.toList)
  change root home ++ rest = home.toList at whole
  rwa [IsAbsolute, ← whole, List.head?_append_of_ne_nil _ h] at absolute

theorem expandHome?_of_head? {home path : String} (h : path.toList.head? ≠ some '~') :
    expandHome? home path = some path := by
  unfold expandHome?
  split
  · rename_i chars; simp [chars] at h
  · rfl

/-- What follows `~` when it stands for the home directory. -/
def BelowHome (rest : List Char) : Prop := rest = [] ∨ rest.head? = some '/'

theorem takeWhile_belowHome {rest : List Char} :
    rest.takeWhile (· != '/') = [] ↔ BelowHome rest := by
  cases rest with
  | nil => simp [BelowHome]
  | cons c tail => by_cases h : c = '/' <;> simp [BelowHome, h]

theorem expandHome?_tilde {home : String} {rest : List Char} (h : BelowHome rest) :
    expandHome? home (String.ofList ('~' :: rest)) = some (atHome home (String.ofList rest)) := by
  simp [expandHome?, takeWhile_belowHome.mpr h]

theorem head?_atHome {home : String} {rest : List Char} (absolute : IsAbsolute home)
    (h : BelowHome rest) : (atHome home (String.ofList rest)).toList.head? = some '/' := by
  rw [toList_atHome, String.toList_ofList]
  by_cases empty : root home = []
  · rcases h with rfl | slash
    · simp [empty]
    · have some_char : rest ≠ [] := by rintro rfl; simp at slash
      simpa [empty, some_char] using slash
  · rw [if_neg (by simp [empty]), List.head?_append_of_ne_nil _ empty]
    exact head?_root absolute empty

/-- Resolving a directory a second time changes nothing. -/
theorem Resolved.expandHome? {home directory : String} (absolute : IsAbsolute home)
    (h : Resolved home directory) : Path.expandHome? home directory = some directory := by
  obtain ⟨raw, found⟩ := h
  have same := found
  unfold Path.expandHome? at found
  split at found
  · rename_i rest chars
    dsimp only at found
    split at found
    · rename_i account
      have below : BelowHome rest := takeWhile_belowHome.mp (by simpa using account)
      obtain rfl := Option.some.inj found
      exact expandHome?_of_head? (by rw [head?_atHome absolute below]; decide)
    · split at found
      · cases found
      · cases found; exact same
  · cases found; exact same

theorem contractHome_eq (home path : String) :
    contractHome home path =
      if root home ≠ [] ∧ (path.toList = root home ∨ root home ++ ['/'] <+: path.toList)
      then String.ofList ('~' :: path.toList.drop (root home).length) else path := by
  have whole : path = String.ofList (root home) ↔ path.toList = root home := by
    rw [← String.toList_inj, String.toList_ofList]
  have contracted (n : Nat) :
      "~" ++ dropFirst n path = String.ofList ('~' :: path.toList.drop n) := by
    rw [← String.toList_inj]; simp [dropFirst]
  simp only [contractHome, root_homeDirectory, startsWith, contracted, Bool.and_eq_true,
    Bool.or_eq_true, beq_iff_eq, whole, List.isPrefixOf_iff_prefix, String.toList_append,
    String.toList_ofList, String.length_ofList]
  simp

/-- A path is contracted only if it is the home directory or lies below it. -/
theorem contractHome_cases (home path : String) :
    contractHome home path = path ∨
      ∃ rest, BelowHome rest ∧ root home ≠ [] ∧ path.toList = root home ++ rest ∧
        contractHome home path = String.ofList ('~' :: rest) := by
  rw [contractHome_eq]
  by_cases inside : root home ≠ [] ∧
      (path.toList = root home ∨ root home ++ ['/'] <+: path.toList)
  · right
    obtain ⟨rest, below, chars⟩ : ∃ rest, BelowHome rest ∧ path.toList = root home ++ rest := by
      rcases inside.2 with whole | ⟨tail, split⟩
      · exact ⟨[], .inl rfl, by simpa using whole⟩
      · exact ⟨'/' :: tail, .inr rfl, by simp [← split]⟩
    exact ⟨rest, below, inside.1, chars, by rw [if_pos inside, chars, List.drop_left]⟩
  · exact .inl (if_neg inside)

/-- A directory that resolving leaves alone comes back from its form with `~`. -/
theorem expandHome?_contractHome {home directory : String}
    (settled : expandHome? home directory = some directory) :
    expandHome? home (contractHome home directory) = some directory := by
  rcases contractHome_cases home directory with same | ⟨rest, below, nonempty, chars, contracted⟩
  · rw [same, settled]
  · rw [contracted, expandHome?_tilde below]
    refine congrArg some (String.toList_inj.mp ?_)
    rw [toList_atHome, String.toList_ofList, if_neg (by simp [nonempty]), chars]

/-- Only an account that cannot be asked for stops a directory from being resolved. -/
theorem expandHome?_eq_none {home path : String} (h : expandHome? home path = none) :
    ∃ rest, path.toList = '~' :: rest ∧ '\x00' ∈ rest.takeWhile (· != '/') := by
  unfold expandHome? at h
  split at h
  · rename_i rest tilde
    dsimp only at h
    split at h
    · cases h
    · split at h
      · rename_i zero
        exact ⟨rest, tilde, List.contains_iff_mem.mp zero⟩
      · cases h
  · cases h

/-- Writing a directory with `~` is undone by resolving it: of every directory that was resolved, and
of every path that does not begin with `~`, whatever slashes the home directory ends in and also if
it is the root directory. -/
theorem contractHome_undone {home : String} (absolute : IsAbsolute home) :
    (∀ raw, (∃ directory, expandHome? home raw = some directory ∧
          expandHome? home (contractHome home directory) = some directory) ∨
        expandHome? home raw = none ∧
          ∃ rest, raw.toList = '~' :: rest ∧ '\x00' ∈ rest.takeWhile (· != '/')) ∧
      ∀ path, path.toList.head? ≠ some '~' →
        expandHome? home (contractHome home path) = some path := by
  refine ⟨fun raw => ?_, fun path away => expandHome?_contractHome (expandHome?_of_head? away)⟩
  cases found : expandHome? home raw with
  | none => exact .inr ⟨rfl, expandHome?_eq_none found⟩
  | some directory =>
    have resolved : Resolved home directory := ⟨raw, found⟩
    exact .inl ⟨directory, rfl, expandHome?_contractHome (resolved.expandHome? absolute)⟩

/-- The home directory ends in slashes here, its name begins another one, and the root directory is
a home as well. -/
theorem contractHome_undone_slashes :
    IsAbsolute "/home/dev//" ∧ IsAbsolute "/" ∧
      expandHome? "/home/dev//" "~//x/" = some "/home/dev//x/" ∧
      contractHome "/home/dev//" "/home/dev//x/" = "~//x/" ∧
      expandHome? "/home/dev//" (contractHome "/home/dev//" "/home/dev//x/") =
        some "/home/dev//x/" ∧
      contractHome "/home/dev//" "/home/developer" = "/home/developer" ∧
      expandHome? "/home/dev//" (contractHome "/home/dev//" "/home/developer") =
        some "/home/developer" ∧
      expandHome? "/" "~" = some "/" ∧
      expandHome? "/" (contractHome "/" "/") = some "/" := by
  have dev : IsAbsolute "/home/dev//" := rfl
  have top : IsAbsolute "/" := rfl
  have below : expandHome? "/home/dev//" "~//x/" = some "/home/dev//x/" := by decide
  have whole : expandHome? "/" "~" = some "/" := by decide
  have undone := contractHome_undone dev
  refine ⟨dev, top, below, by decide, ?_, by decide,
    undone.2 "/home/developer" (by decide), whole, ?_⟩
  · obtain ⟨directory, found, back⟩ | ⟨unknown, -⟩ := undone.1 "~//x/"
    · obtain rfl : "/home/dev//x/" = directory := Option.some.inj (below.symm.trans found)
      exact back
    · exact absurd (below.symm.trans unknown) nofun
  · obtain ⟨directory, found, back⟩ | ⟨unknown, -⟩ := (contractHome_undone top).1 "~"
    · obtain rfl : "/" = directory := Option.some.inj (whole.symm.trans found)
      exact back
    · exact absurd (whole.symm.trans unknown) nofun

/-! ### Any home directory -/

/-- Directories that are resolved against the home directory. -/
def AtHome (path : String) : Prop := ∃ rest, BelowHome rest ∧ path.toList = '~' :: rest

/-- A home directory that is left open. Against it directories are as they are written. -/
def openHome : String := "~"

/-- The directory with its `~` resolved, if it can be. -/
def inHome (home path : String) : String := (expandHome? home path).getD path

/-- Whether a directory is resolved hangs on the directory alone. -/
theorem expandHome?_cases (path : String) :
    (∃ rest, BelowHome rest ∧ path.toList = '~' :: rest ∧
        ∀ home, expandHome? home path = some (atHome home (String.ofList rest))) ∨
      ¬AtHome path ∧ ((∀ home, expandHome? home path = some path) ∨
        ∀ home, expandHome? home path = none) := by
  by_cases tilde : ∃ rest, path.toList = '~' :: rest
  · obtain ⟨rest, chars⟩ := tilde
    by_cases below : BelowHome rest
    · refine .inl ⟨rest, below, chars, fun home => ?_⟩
      rw [← expandHome?_tilde below, ← chars, String.ofList_toList]
    · have named : ¬(rest.takeWhile (· != '/')).isEmpty = true := by
        rwa [List.isEmpty_iff, takeWhile_belowHome]
      refine .inr ⟨?_, ?_⟩
      · rintro ⟨other, isBelow, same⟩
        rw [chars] at same
        cases same
        exact below isBelow
      · by_cases zero : (rest.takeWhile (· != '/')).contains '\x00' = true
        · refine .inr fun home => ?_
          simp only [expandHome?, chars, if_neg named, if_pos zero]
        · refine .inl fun home => ?_
          simp only [expandHome?, chars, if_neg named, if_neg zero]
  · refine .inr ⟨fun ⟨rest, _, chars⟩ => tilde ⟨rest, chars⟩, .inl fun home => ?_⟩
    exact expandHome?_of_head? fun first => tilde (List.head?_eq_some_iff.mp first)

theorem atHome_openHome (rest : List Char) :
    (atHome openHome (String.ofList rest)).toList = '~' :: rest := by
  have own : root openHome = ['~'] := by decide
  rw [toList_atHome, own, if_neg (List.append_ne_nil_of_left_ne_nil (List.cons_ne_nil _ _) _),
    String.toList_ofList, List.singleton_append]

/-- To resolve a directory is to leave it as it is written first. -/
theorem expandHome?_eq_map (home path : String) :
    expandHome? home path = (expandHome? openHome path).map (inHome home) := by
  rcases expandHome?_cases path with ⟨rest, -, chars, found⟩ | ⟨-, stays | fails⟩
  · have same : atHome openHome (String.ofList rest) = path := by
      rw [← String.toList_inj, atHome_openHome, chars]
    rw [found openHome, same, Option.map_some, inHome, found home, Option.getD_some]
  · rw [stays openHome, Option.map_some, inHome, stays home, Option.getD_some]
  · rw [fails openHome, fails home]
    rfl

theorem homeDirectory_eq_inHome (home : String) :
    homeDirectory home = inHome home (homeDirectory openHome) := by
  have own : homeDirectory openHome = String.ofList ('~' :: []) := by decide
  rw [own, inHome, expandHome?_tilde (.inl rfl), Option.getD_some, homeDirectory,
    String.ofList_nil]

theorem inHome_of_not_atHome {path : String} (away : ¬AtHome path) (home : String) :
    inHome home path = path := by
  rcases expandHome?_cases path with ⟨rest, below, chars, -⟩ | ⟨-, stays | fails⟩
  · exact absurd ⟨rest, below, chars⟩ away
  · rw [inHome, stays]
    rfl
  · rw [inHome, fails]
    rfl

theorem inHome_of_atHome {path : String} {rest : List Char} (below : BelowHome rest)
    (chars : path.toList = '~' :: rest) (home : String) :
    inHome home path = atHome home (String.ofList rest) := by
  rw [inHome, ← String.ofList_toList (s := path), chars, expandHome?_tilde below,
    Option.getD_some]

theorem inHome_eq_empty {home path : String} : inHome home path = "" ↔ path = "" := by
  by_cases at_home : AtHome path
  · obtain ⟨rest, below, chars⟩ := at_home
    have some_path : path ≠ "" := by
      rintro rfl
      cases chars
    rw [inHome_of_atHome below chars, ← String.toList_eq_nil_iff, toList_atHome]
    refine iff_of_false ?_ some_path
    split
    · exact List.cons_ne_nil _ _
    · assumption
  · rw [inHome_of_not_atHome at_home]

theorem root_ne_slash (home : String) : root home ≠ ['/'] := by
  intro slash
  have same : ['/'].rdropWhile (· == '/') = ['/'] := by
    rw [← slash]
    exact List.rdropWhile_idempotent _ _
  exact absurd same (by decide)

/-- What is written with `~` tells home directories apart, but for slashes at their ends. -/
theorem inHome_eq_inHome {path : String} (at_home : AtHome path) {home other : String} :
    inHome home path = inHome other path ↔ root home = root other := by
  obtain ⟨rest, below, chars⟩ := at_home
  rw [inHome_of_atHome below chars, inHome_of_atHome below chars, ← String.toList_inj,
    toList_atHome, toList_atHome, String.toList_ofList]
  by_cases whole : rest = []
  · subst whole
    rw [List.append_nil, List.append_nil]
    split <;> split <;> rename_i empty empty'
    · simp [empty, empty']
    · simp [empty, eq_comm (a := ['/']), root_ne_slash, Ne.symm empty']
    · simp [empty', root_ne_slash, empty]
    · rfl
  · rw [if_neg (List.append_ne_nil_of_right_ne_nil _ whole),
      if_neg (List.append_ne_nil_of_right_ne_nil _ whole), List.append_left_inj]

/-! ### Normal forms -/

theorem isAbsolute_collapsed {path : String} (absolute : IsAbsolute path) :
    IsAbsolute (collapsed path) := by
  have slash : ∃ n, leadingSlashes path = n + 1 := by
    unfold leadingSlashes
    split
    · exact ⟨0, rfl⟩
    · exact ⟨1, rfl⟩
    · exact ⟨0, rfl⟩
    · rename_i other
      obtain ⟨rest, chars⟩ := List.head?_eq_some_iff.mp absolute
      exact absurd chars (other rest)
  obtain ⟨n, count⟩ := slash
  have chars (text : String) : (slashes (n + 1) ++ text).toList =
      '/' :: (List.replicate n '/' ++ text.toList) := by
    simp [slashes, List.replicate_succ]
  simp only [collapsed, count, IsAbsolute]
  split
  · rename_i empty
    rw [String.isEmpty_iff, ← String.toList_eq_nil_iff, chars] at empty
    cases empty
  · rw [chars]
    rfl

/-- An absolute path is resolved, and so is its normal form. -/
theorem resolved_normal {home : String} {path : Option String}
    (absolute : ∀ p ∈ path, p = "" ∨ IsAbsolute p) : ∀ d ∈ normal path, Resolved home d := by
  intro d normalized
  cases path with
  | none => cases normalized
  | some p =>
    unfold normal at normalized
    dsimp only at normalized
    split at normalized
    · cases normalized
    · rename_i spoken
      cases normalized
      have some_path : IsAbsolute p := by
        refine (absolute p rfl).resolve_left ?_
        rintro rfl
        exact spoken rfl
      have whole := isAbsolute_collapsed some_path
      exact ⟨_, expandHome?_of_head? (by rw [whole]; decide)⟩

end SessionPlan.Path
