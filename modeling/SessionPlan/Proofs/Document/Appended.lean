import SessionPlan.Proofs.Document.Revision

/-! One more window at the end of a document's list. The windows before it are built at their places
as they were, and no other field has a part in it, so the project is the one that it was, with one
more window. -/
namespace SessionPlan

namespace Tree

variable {v : Variables} {key value value' : Tree} {back : List (Tree × Tree)}

theorem expand_list_eq_ok {items : List Tree} {t : Tree}
    (expanded : expand v (.list items) = .ok t) :
    ∃ out, expandItems v items = .ok out ∧ t = .list out := by
  rw [expand] at expanded
  obtain ⟨out, done, eq⟩ := bind_eq_ok.mp expanded
  cases eq
  exact ⟨out, done, rfl⟩

theorem expand_mapping_eq_ok {entries : List (Tree × Tree)} {t : Tree}
    (expanded : expand v (.mapping entries) = .ok t) :
    ∃ out, expandEntries v [] entries = .ok out ∧ t = .mapping out := by
  rw [expand] at expanded
  obtain ⟨out, done, eq⟩ := bind_eq_ok.mp expanded
  cases eq
  exact ⟨out, done, rfl⟩

theorem expandItems_eq_mapM (items : List Tree) : expandItems v items = items.mapM (expand v) := by
  induction items with
  | nil => rfl
  | cons x xs ih => rw [expandItems, ih, List.mapM_cons]

theorem expandItems_append_eq_ok {items : List Tree} {w : Tree} {out : List Tree}
    (expanded : expandItems v (items ++ [w]) = .ok out) :
    ∃ front last, out = front ++ [last] ∧ expandItems v items = .ok front ∧
      expand v w = .ok last := by
  rw [expandItems_eq_mapM, List.mapM_append] at expanded
  obtain ⟨front, first, expanded⟩ := bind_eq_ok.mp expanded
  obtain ⟨tail, later, eq⟩ := bind_eq_ok.mp expanded
  rw [List.mapM_cons, List.mapM_nil] at later
  obtain ⟨last, done, later⟩ := bind_eq_ok.mp later
  cases later
  cases eq
  exact ⟨front, last, rfl, by rw [expandItems_eq_mapM, first], done⟩

theorem expandEntries_cons_eq_ok {seen rest out : List (Tree × Tree)}
    (expanded : expandEntries v seen ((key, value) :: rest) = .ok out) :
    ∃ newKey newValue later, expand v key = .ok newKey ∧ expand v value = .ok newValue ∧
      expandEntries v ((newKey, key) :: seen) rest = .ok later ∧
      out = (newKey, newValue) :: later := by
  rw [expandEntries] at expanded
  obtain ⟨newKey, keyDone, expanded⟩ := bind_eq_ok.mp expanded
  cases plain : newKey.isKey with
  | false =>
    rw [plain] at expanded
    cases expanded
  | true =>
    simp only [plain, Bool.not_true, Bool.false_eq_true, if_false] at expanded
    split at expanded
    · exact absurd expanded (reject_ne_ok _ _ _)
    · obtain ⟨newValue, valueDone, expanded⟩ := bind_eq_ok.mp expanded
      obtain ⟨later, others, eq⟩ := bind_eq_ok.mp expanded
      cases eq
      exact ⟨newKey, newValue, later, keyDone, valueDone, others, rfl⟩

theorem expandEntries_keys {entries seen out : List (Tree × Tree)}
    (expanded : expandEntries v seen entries = .ok out) :
    entries.mapM (fun e => expand v e.1) = .ok (out.map Prod.fst) := by
  induction entries generalizing seen out with
  | nil =>
    cases expanded
    rfl
  | cons entry rest ih =>
    obtain ⟨k, x, later, keyDone, -, others, rfl⟩ := expandEntries_cons_eq_ok expanded
    rw [List.mapM_cons, keyDone, ok_bind, ih others]
    rfl

/-- Keys are looked at one by one, so two mappings that differ in one value are expanded to mappings
that do, at the same place. -/
theorem expandEntries_replaced {front seen out out' : List (Tree × Tree)}
    (expanded : expandEntries v seen (front ++ (key, value) :: back) = .ok out)
    (replaced : expandEntries v seen (front ++ (key, value') :: back) = .ok out') :
    ∃ front' key' x x' back', out = front' ++ (key', x) :: back' ∧
      out' = front' ++ (key', x') :: back' ∧ front'.length = front.length ∧
      expand v value = .ok x ∧ expand v value' = .ok x' := by
  induction front generalizing seen out out' with
  | nil =>
    obtain ⟨k, x, later, keyDone, done, others, rfl⟩ := expandEntries_cons_eq_ok expanded
    obtain ⟨k', x', later', keyDone', done', others', rfl⟩ := expandEntries_cons_eq_ok replaced
    obtain rfl := Except.ok.inj (keyDone.symm.trans keyDone')
    obtain rfl := Except.ok.inj (others.symm.trans others')
    exact ⟨[], k, x, x', later, rfl, rfl, rfl, done, done'⟩
  | cons entry rest ih =>
    obtain ⟨k, y, later, keyDone, done, others, rfl⟩ := expandEntries_cons_eq_ok expanded
    obtain ⟨k', y', later', keyDone', done', others', rfl⟩ := expandEntries_cons_eq_ok replaced
    obtain rfl := Except.ok.inj (keyDone.symm.trans keyDone')
    obtain rfl := Except.ok.inj (done.symm.trans done')
    obtain ⟨front', key', x, x', back', rfl, rfl, place, found⟩ := ih others others'
    exact ⟨(k, y) :: front', key', x, x', back', rfl, rfl, congrArg (· + 1) place, found⟩

end Tree

/-- The project with one more window. -/
def Project.withWindow (p : Project) (w : Window) : Project :=
  { p with windows := p.windows ++ [w] }

namespace Document

/-! ### Another value under a key -/

section
variable {F : Type} [DecidableEq F] {v : Vocabulary F} {f : F}

/-- A pair that gives a field its value gives it another value as well, and has no say in other
fields. -/
theorem chosen_replaced (listed : v.Listed) {before after : List Pair} {key x : Tree}
    {leading : Bool}
    (won : winner? v (before ++ ⟨key, x, leading⟩ :: after) f = some before.length) (x' : Tree) :
    chosen v (before ++ ⟨key, x, leading⟩ :: after) f = some x ∧
      chosen v (before ++ ⟨key, x', leading⟩ :: after) f = some x' ∧
      ∀ g, g ≠ f → chosen v (before ++ ⟨key, x', leading⟩ :: after) g =
        chosen v (before ++ ⟨key, x, leading⟩ :: after) g := by
  have heard : winner? v (before ++ ⟨key, x', leading⟩ :: after) =
      winner? v (before ++ ⟨key, x, leading⟩ :: after) := winner?_congr (by simp)
  obtain ⟨p, here, named⟩ := winner?_eq_some listed won
  refine ⟨by simp [chosen, won], by simp [chosen, heard, won], fun g other => ?_⟩
  rw [chosen, chosen, heard]
  cases winner : winner? v (before ++ ⟨key, x, leading⟩ :: after) g with
  | none => rfl
  | some m =>
    obtain ⟨q, there, named'⟩ := winner?_eq_some listed winner
    have apart : m ≠ before.length := by
      rintro rfl
      rw [here] at there
      cases there
      rw [named] at named'
      exact other (Option.some.inj named').symm
    rw [Option.bind_some, Option.bind_some, getElem?_append_cons_of_ne apart]

end

/-! ### One more window -/

variable {home : String} {wishes : Wishes} {front back : List (Tree × Tree)} {key w : Tree}
  {items : List Tree} {p p' : Project}

/-- Windows are built one by one, each at its place. -/
theorem windows_appended {windowBase paneBase : Int} {list longer : List Window}
    (listed : (windows home windowBase paneBase (.list items)).result = .ok list)
    (further : (windows home windowBase paneBase (.list (items ++ [w]))).result = .ok longer) :
    ∃ added, longer = list ++ [added] ∧ list.length = items.length ∧
      (window home (itemPath "windows" items.length) (windowBase + items.length)
        paneBase w).result = .ok added := by
  obtain ⟨some, each⟩ := windows_eq_ok.mp listed
  rw [windows_eq_mapM some, entryList] at listed
  rw [windows_eq_mapM (List.append_ne_nil_of_right_ne_nil _ (List.cons_ne_nil _ _)), entryList,
    List.zipIdx_append, List.mapM_append] at further
  obtain ⟨before, again, further⟩ := Noted.result_bind_eq_ok.mp further
  obtain rfl := Except.ok.inj (listed.symm.trans again)
  obtain ⟨last, opened, eq⟩ := Noted.result_bind_eq_ok.mp further
  cases eq
  rw [List.zipIdx_singleton, Nat.zero_add, Noted.mapM_result_eq_ok] at opened
  obtain ⟨added, none, own, nothing, rfl⟩ := List.forall₂_cons_left_iff.mp opened
  cases nothing
  exact ⟨added, rfl, each.length_eq.symm.trans List.length_zipIdx, own⟩

/-- What a project has besides its windows does not hang on them. -/
theorem build_appended
    (won : winner? projectVocabulary (plainPairs (front ++ (key, .list items) :: back)) .windows =
      some front.length)
    (built : (build home wishes (.mapping (front ++ (key, .list items) :: back))).result = .ok p)
    (longer : (build home wishes
      (.mapping (front ++ (key, .list (items ++ [w])) :: back))).result = .ok p') :
    ∃ added, p' = p.withWindow added ∧ p.windows.length = items.length ∧
      (window home (itemPath "windows" items.length) (p.windowBaseIndex + items.length)
        p.paneBaseIndex w).result = .ok added := by
  obtain ⟨-, given⟩ := build_eq_ok.mp built
  obtain ⟨-, given'⟩ := build_eq_ok.mp longer
  obtain ⟨frame, list, framed, listed, done⟩ := projectOfFields_eq_ok.mp given
  obtain ⟨frame', list', framed', listed', done'⟩ := projectOfFields_eq_ok.mp given'
  have parts (x : Tree) : rootPairs (.mapping (front ++ (key, x) :: back)) =
      plainPairs front ++ ⟨key, x, false⟩ :: plainPairs back := by
    simp [rootPairs, plainPairs]
  have place : (plainPairs front).length = front.length := List.length_map ..
  rw [← rootPairs, parts, ← place] at won
  obtain ⟨short, long, others⟩ :=
    chosen_replaced complete_project.listed won (.list (items ++ [w]))
  rw [parts] at framed framed' listed listed'
  rw [projectFrame_congr others, framed] at framed'
  cases framed'
  rw [orNull, short, Option.getD_some] at listed
  rw [orNull, long, Option.getD_some] at listed'
  obtain rfl := projectWith_eq_ok done
  obtain rfl := projectWith_eq_ok done'
  obtain ⟨added, rfl, length, own⟩ := windows_appended listed listed'
  exact ⟨added, rfl, length, own⟩

/-- A document and the one with `w` at the end of the list that its windows are read from. Which key
that is shows when the variables are expanded. -/
inductive Appended (values : Variables) (w : Tree) : Tree → Tree → Prop
  | intro {front back : List (Tree × Tree)} {key : Tree} {items : List Tree}
      (wins : ∀ entries,
        (Tree.mapping (front ++ (key, .list items) :: back)).expand values =
            .ok (.mapping entries) →
          winner? projectVocabulary (plainPairs entries) .windows = some front.length) :
      Appended values w (.mapping (front ++ (key, .list items) :: back))
        (.mapping (front ++ (key, .list (items ++ [w])) :: back))

/-- The project of the longer document has one more window, built of the entry at its place. -/
theorem normalize_appended {values : Variables} {document longer : Tree}
    (appended : Appended values w document longer)
    (built : (normalize home values wishes document).result = .ok p)
    (further : (normalize home values wishes longer).result = .ok p') :
    ∃ entry added, w.expand values = .ok entry ∧ p' = p.withWindow added ∧
      (window home (itemPath "windows" p.windows.length)
        (p.windowBaseIndex + p.windows.length) p.paneBaseIndex entry).result = .ok added := by
  obtain ⟨wins⟩ := appended
  obtain ⟨expanded, first, built⟩ := Noted.result_bind_eq_ok.mp built
  obtain ⟨expanded', second, further⟩ := Noted.result_bind_eq_ok.mp further
  rw [Noted.result_liftM] at first second
  obtain ⟨entries, shorter, rfl⟩ := Tree.expand_mapping_eq_ok first
  obtain ⟨entries', longer, rfl⟩ := Tree.expand_mapping_eq_ok second
  have won := wins entries first
  obtain ⟨front', key', x, x', back', rfl, rfl, place, short, long⟩ :=
    Tree.expandEntries_replaced shorter longer
  obtain ⟨items', listed, rfl⟩ := Tree.expand_list_eq_ok short
  obtain ⟨_, listed', rfl⟩ := Tree.expand_list_eq_ok long
  obtain ⟨before, entry, rfl, again, done⟩ := Tree.expandItems_append_eq_ok listed'
  obtain rfl := Except.ok.inj (listed.symm.trans again)
  rw [← place] at won
  obtain ⟨added, rfl, length, opened⟩ := build_appended won built further
  rw [← length] at opened
  exact ⟨entry, added, done, rfl, opened⟩

end Document
end SessionPlan
