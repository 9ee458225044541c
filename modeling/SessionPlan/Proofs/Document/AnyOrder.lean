import SessionPlan.Proofs.Document.FieldOrder

/-! Building a project from a document whose fields come in another order. Entry by entry the pairs
that are laid out are the same up to their order, so that windows, panes and the whole project are
the same, or fail together. -/
namespace SessionPlan.Document

/-! ### Entries -/

section
variable {F : Type} [DecidableEq F] {v : Vocabulary F} {field : F} {R : Tree → Tree → Prop}
variable {content : String}

theorem ValueOrder.pairs (separate : v.Separate) (named : v.find? content = some (field, 0))
    {x x' : Tree} (value : ValueOrder v field R x x') (path : String) (name : Tree) :
    EndAlike (PairsOrder v field R) (entryContent v content path name x)
      (entryContent v content path name x') := by
  cases value with
  | same => exact .same PairsOrder.refl _
  | @nested entries others order =>
    have unknown := order.find?_unknown (v := v)
    rw [entryContent, entryContent]
    split
    · rename_i first
      split
      · exact .reject _ _ _ _
      · rename_i second
        simp [first, second] at unknown
    · rename_i first
      split
      · rename_i second
        simp [first, second] at unknown
      · exact .of_rearranged separate order
  | content order =>
    have stands : v.field? (.text content) = some field := by
      simp [Vocabulary.field?, Vocabulary.keyField?, named]
    exact PairsOrder.in_place (.cons ⟨rfl, rfl, .inr ⟨stands, order⟩⟩ .nil)

theorem any_null_eq (entries : List (Tree × Tree)) :
    (entries.any fun (key, _) => key matches .null) =
      ((plainPairs entries).map (·.key)).any (· matches .null) := by
  rw [plainPairs, List.map_map, List.any_map]
  rfl

/-- Entries in another order have a null among their keys where these have one. -/
theorem PairsOrder.any_null {rest rest' : List (Tree × Tree)}
    (later : PairsOrder v field R (plainPairs rest) (plainPairs rest')) :
    (rest.any fun (key, _) => key matches .null) = rest'.any fun (key, _) => key matches .null := by
  rw [any_null_eq, any_null_eq, later.keys.any_eq]

/-- An entry that begins with its name. -/
theorem entryPairs_unknown {name x x' : Tree} {rest rest' : List (Tree × Tree)} {path : String}
    (unknown : v.field? name = none)
    (value : EndAlike (PairsOrder v field R) (entryContent v content path name x)
      (entryContent v content path name x'))
    (later : PairsOrder v field R (plainPairs rest) (plainPairs rest')) :
    EndAlike (PairsOrder v field R) (entryPairs v content path ((name, x) :: rest))
      (entryPairs v content path ((name, x') :: rest')) := by
  have nameless : ¬(v.keyField? name).isSome = true := by
    simpa [Vocabulary.field?] using unknown
  have late := later.any_null
  rw [entryPairs, entryPairs, if_neg nameless, if_neg nameless]
  refine .bind_same _ fun own => .bind value fun filled filled' order => ?_
  dsimp only
  -- a null among the keys that follow is there in both orders
  split
  · rename_i null
    split
    · trivial
    · rename_i clear
      exact absurd (late.symm.trans null) clear
  · rename_i clear
    split
    · rename_i null
      exact absurd (late.trans null) clear
    · exact ((PairsOrder.refl own).append order).append later

/-- An entry of fields only. -/
theorem entryPairs_rearranged (separate : v.Separate) {entries others : List (Tree × Tree)}
    (known : ∀ e ∈ entries, (v.field? e.1).isSome)
    (order : Rearranged (InField v field R) entries others) (path : String) :
    EndAlike (PairsOrder v field R) (entryPairs v content path entries)
      (entryPairs v content path others) := by
  by_cases empty : entries = []
  · subst empty
    obtain rfl : others = [] := List.map_eq_nil_iff.mp (List.nil_perm.mp order.keys)
    trivial
  · have nonempty : others ≠ [] := by
      rintro rfl
      exact empty (List.map_eq_nil_iff.mp (List.perm_nil.mp order.keys))
    rw [entryPairs_of_known empty known, entryPairs_of_known nonempty (order.known known)]
    exact .of_rearranged separate order

/-- Any entry with its keys where they were. -/
theorem entryPairs_in_place {entries others : List (Tree × Tree)}
    (parts : List.Forall₂ (fun e e' => e.1 = e'.1 ∧ InField v field R e.1 e.2 e'.2) entries others)
    (path : String) : EndAlike (PairsOrder v field R) (entryPairs v content path entries)
      (entryPairs v content path others) := by
  cases parts with
  | nil => trivial
  | @cons e e' rest rest' first later =>
    obtain ⟨name, x⟩ := e
    obtain ⟨_, x'⟩ := e'
    obtain ⟨rfl, value⟩ := first
    cases key : v.field? name with
    | none =>
      -- the value of a name that is no field has stayed
      obtain rfl : x = x' := value.resolve_right fun other => by
        rw [key] at other
        cases other.1
      exact entryPairs_unknown key (.same PairsOrder.refl _) (.in_place (plainPairs_stand later))
    | some f =>
      have known : (v.keyField? name).isSome = true := by
        rw [← Option.isSome_map, ← Vocabulary.field?, key]
        rfl
      rw [entryPairs, entryPairs, if_pos known, if_pos known]
      exact .in_place (plainPairs_stand (.cons ⟨rfl, value⟩ later))

theorem EntryOrder.pairs (separate : v.Separate) (named : v.find? content = some (field, 0))
    {entries others : List (Tree × Tree)}
    (order : EntryOrder v field R (.mapping entries) (.mapping others)) (path : String) :
    EndAlike (PairsOrder v field R) (entryPairs v content path entries)
      (entryPairs v content path others) := by
  cases order with
  | same => exact .same PairsOrder.refl _
  | fields known order => exact entryPairs_rearranged separate known order path
  | inPlace parts => exact entryPairs_in_place parts path
  | named unknown value order =>
    exact entryPairs_unknown unknown (value.pairs separate named path _)
      (.of_rearranged separate order)

end

variable {home path : String} {index base : Int}

/-! ### Panes -/

theorem pane_mapping_order {entries others : List (Tree × Tree)}
    (order : PaneOrder (.mapping entries) (.mapping others)) :
    (pane home path index (.mapping entries)).Related Eq
      (pane home path index (.mapping others)) := by
  rw [pane, pane]
  refine .bind (.lift (EntryOrder.pairs separate_pane (by decide) order path))
    fun pairs pairs' laid => ?_
  refine .bind (laid.readFields (fun x y same => same ▸ .refl x) path)
    fun fields fields' given => ?_
  rw [given.eq_of_eq]
  exact .refl _

/-- A pane is the same whatever the order of its fields. -/
theorem pane_order {t t' : Tree} (order : PaneOrder t t') :
    (pane home path index t).Related Eq (pane home path index t') := by
  cases order with
  | same => exact .refl _
  | content same => rw [same]; exact .refl _
  | fields known order => exact pane_mapping_order (.fields known order)
  | inPlace parts => exact pane_mapping_order (.inPlace parts)
  | named unknown value order => exact pane_mapping_order (.named unknown value order)

theorem paneList_order {position : Nat} {entries others : List Tree}
    (each : List.Forall₂ PaneOrder entries others) :
    (paneList home path base position entries).Related Eq
      (paneList home path base position others) := by
  induction each generalizing position with
  | nil => exact .refl _
  | cons first _ ih =>
    refine .bind (pane_order first) fun p _ same => ?_
    subst same
    exact .bind ih fun later _ same => same ▸ .refl _

theorem panes_order {t t' : Tree} (order : ListOrder PaneOrder t t') :
    (panes home path base t).Related Eq (panes home path base t') := by
  cases order with
  | items each =>
    cases each with
    | nil => exact .refl _
    | cons first rest => exact paneList_order (.cons first rest)
  | single entry => exact paneList_order (.cons entry .nil)

/-! ### Windows -/

theorem windowOfFields_order {fields fields' : WindowField → Option Tree}
    (stand : FieldsStand .panes (ListOrder PaneOrder) fields fields') :
    (windowOfFields home path index base fields).Related Eq
      (windowOfFields home path index base fields') := by
  have same (f : WindowField) (other : f ≠ .panes) : fields f = fields' f := stand.field_eq other
  have panes : (panes home (fieldPath path "panes") base (orNull fields .panes)).Related Eq
      (panes home (fieldPath path "panes") base (orNull fields' .panes)) := by
    rcases stand.content_eq_or with equal | order
    · rw [equal]; exact .refl _
    · exact panes_order order
  simp only [orNull] at panes
  simp (disch := decide) only [windowOfFields, orNull, same]
  -- the panes are read last, after the eight fields that are the same
  iterate 8 refine .bind_same _ fun _ => ?_
  exact .bind panes fun _ _ equal => equal ▸ .refl _

theorem window_mapping_order {entries others : List (Tree × Tree)}
    (order : WindowOrder (.mapping entries) (.mapping others)) :
    (window home path index base (.mapping entries)).Related Eq
      (window home path index base (.mapping others)) := by
  rw [window, window]
  refine .bind (.lift (EntryOrder.pairs separate_window (by decide) order path))
    fun pairs pairs' laid => ?_
  refine .bind (laid.readFields (fun _ _ => ListOrder.alike fun _ _ => PaneOrder.alike) path)
    fun fields fields' stand => ?_
  exact windowOfFields_order stand

/-- A window is the same whatever the order of its fields and of those of its panes. -/
theorem window_order {t t' : Tree} (order : WindowOrder t t') :
    (window home path index base t).Related Eq (window home path index base t') := by
  cases order with
  | same => exact .refl _
  | content order => exact .bind (panes_order order) fun _ _ same => same ▸ .refl _
  | fields known order => exact window_mapping_order (.fields known order)
  | inPlace parts => exact window_mapping_order (.inPlace parts)
  | named unknown value order => exact window_mapping_order (.named unknown value order)

theorem windowList_order {position : Nat} {entries others : List Tree}
    (each : List.Forall₂ WindowOrder entries others) :
    (windowList home index base position entries).Related Eq
      (windowList home index base position others) := by
  induction each generalizing position with
  | nil => exact .refl _
  | cons first _ ih =>
    refine .bind (window_order first) fun w _ same => ?_
    subst same
    exact .bind ih fun later _ same => same ▸ .refl _

theorem windows_order {t t' : Tree} (order : ListOrder WindowOrder t t') :
    (windows home index base t).Related Eq (windows home index base t') := by
  cases order with
  | items each =>
    cases each with
    | nil => exact .refl _
    | cons first rest => exact windowList_order (.cons first rest)
  | single entry => exact windowList_order (.cons entry .nil)

/-! ### Projects -/

theorem projectOfFields_order {wishes : Wishes} {fields fields' : ProjectField → Option Tree}
    (stand : FieldsStand .windows (ListOrder WindowOrder) fields fields') :
    (projectOfFields home wishes fields).Related Eq (projectOfFields home wishes fields') := by
  have same (f : ProjectField) (other : f ≠ .windows) : fields f = fields' f :=
    stand.field_eq other
  have windows (windowBase paneBase : Int) :
      (windows home windowBase paneBase (orNull fields .windows)).Related Eq
        (windows home windowBase paneBase (orNull fields' .windows)) := by
    rcases stand.content_eq_or with equal | order
    · rw [equal]; exact .refl _
    · exact windows_order order
  have name : sessionName fields wishes.name = sessionName fields' wishes.name := by
    simp (disch := decide) only [sessionName, orNull, same]
  have attach : attachment fields wishes.attach = attachment fields' wishes.attach := by
    simp (disch := decide) only [attachment, orNull, same]
  simp only [orNull] at windows
  simp (disch := decide) only [projectOfFields, orNull, same, name, attach]
  -- the windows are read last, after the nineteen steps that are the same
  iterate 19 refine .bind_same _ fun _ => ?_
  exact .bind (windows _ _) fun _ _ equal => equal ▸ .refl _

theorem build_related (home : String) (wishes : Wishes) {t t' : Tree} (order : ProjectOrder t t') :
    (build home wishes t).Related Eq (build home wishes t') := by
  cases order with
  | same => exact .refl _
  | fields order =>
    rw [build, build]
    refine .bind ((PairsOrder.of_rearranged separate_project order).readFields
      (fun _ _ => ListOrder.alike fun _ _ => WindowOrder.alike) "") fun fields fields' stand => ?_
    simp only [stand.isSome_eq]
    split
    · exact .bind_same _ fun _ => projectOfFields_order stand
    · exact projectOfFields_order stand

/-- The order of fields does not matter. Documents that differ in it give the same project with the
same notes, though the notes may come in another order, or neither gives one. -/
theorem build_fieldOrder (home : String) (wishes : Wishes) {t t' : Tree}
    (order : ProjectOrder t t') :
    (∃ project, (build home wishes t).result = .ok project ∧
        (build home wishes t').result = .ok project ∧
        (build home wishes t).notes.Perm (build home wishes t').notes) ∨
      (∃ e, (build home wishes t).result = .error e) ∧
        ∃ e, (build home wishes t').result = .error e := by
  obtain ⟨ends, notes⟩ := build_related home wishes order
  rcases ends.ok_or_error with ⟨project, first, second⟩ | failed
  · exact .inl ⟨project, first, second, notes project first⟩
  · exact .inr failed

/-- A window that is made of fields and one that begins with its name. -/
def tidyDocument : Tree := .mapping [
  (.text "session_name", .text "work"),
  (.text "working_dir", .text "/srv"),
  (.text "windows", .list [
    .mapping [
      (.text "name", .text "logs"),
      (.text "panes", .list [
        .mapping [(.text "clear", .flag true), (.text "commands", .text "tail -f log")]])],
    .mapping [
      (.text "editor", .mapping [(.text "root", .text "/src"), (.text "panes", .text "vim")]),
      (.text "on_create", .text "make"),
      (.text "layout", .text "tiled")]])]

/-- The same with the fields of each mapping the other way round. -/
def untidyDocument : Tree := .mapping [
  (.text "windows", .list [
    .mapping [
      (.text "panes", .list [
        .mapping [(.text "commands", .text "tail -f log"), (.text "clear", .flag true)]]),
      (.text "name", .text "logs")],
    .mapping [
      (.text "editor", .mapping [(.text "panes", .text "vim"), (.text "root", .text "/src")]),
      (.text "layout", .text "tiled"),
      (.text "on_create", .text "make")]]),
  (.text "working_dir", .text "/srv"),
  (.text "session_name", .text "work")]

def tidyProject : Project where
  sessionName := some "work"
  workingDir := some "/srv"
  windows := [
    { name := some "logs", panes := [{ clear := true, commands := ["tail -f log"] }] },
    { index := 2, name := some "editor", workingDir := some "/src", layout := some "tiled"
      onCreate := ["make"], panes := [{ commands := ["vim"] }] }]

theorem tidy_untidy : ProjectOrder tidyDocument untidyDocument := by
  have pane : PaneOrder
      (.mapping [(.text "clear", .flag true), (.text "commands", .text "tail -f log")])
      (.mapping [(.text "commands", .text "tail -f log"), (.text "clear", .flag true)]) :=
    .fields (by decide) (.reversed (by decide +kernel)
      (.cons ⟨rfl, .inl rfl⟩ (.cons ⟨rfl, .inl rfl⟩ .nil)))
  have logs : WindowOrder
      (.mapping [(.text "name", .text "logs"), (.text "panes", .list [
        .mapping [(.text "clear", .flag true), (.text "commands", .text "tail -f log")]])])
      (.mapping [(.text "panes", .list [
        .mapping [(.text "commands", .text "tail -f log"), (.text "clear", .flag true)]]),
        (.text "name", .text "logs")]) :=
    .fields (by decide) (.reversed (by decide +kernel)
      (.cons ⟨rfl, .inr ⟨by decide, .items (.cons pane .nil)⟩⟩ (.cons ⟨rfl, .inl rfl⟩ .nil)))
  have editor : WindowOrder
      (.mapping [
        (.text "editor", .mapping [(.text "root", .text "/src"), (.text "panes", .text "vim")]),
        (.text "on_create", .text "make"), (.text "layout", .text "tiled")])
      (.mapping [
        (.text "editor", .mapping [(.text "panes", .text "vim"), (.text "root", .text "/src")]),
        (.text "layout", .text "tiled"), (.text "on_create", .text "make")]) :=
    .named (by decide)
      (.nested (.reversed (by decide +kernel)
        (.cons ⟨rfl, .inl rfl⟩ (.cons ⟨rfl, .inl rfl⟩ .nil))))
      (.reversed (by decide +kernel) (.cons ⟨rfl, .inl rfl⟩ (.cons ⟨rfl, .inl rfl⟩ .nil)))
  have windows : ListOrder WindowOrder (.list _) (.list _) :=
    .items (.cons logs (.cons editor .nil))
  exact .fields (.reversed (by decide +kernel) (.cons ⟨rfl, .inr ⟨by decide, windows⟩⟩
    (.cons ⟨rfl, .inl rfl⟩ (.cons ⟨rfl, .inl rfl⟩ .nil))))

theorem build_tidyDocument : (build "/home/ann" {} tidyDocument).result = .ok tidyProject :=
  eq_ok_of_toOption (by decide +kernel)

theorem build_fieldOrder_untidy : ProjectOrder tidyDocument untidyDocument ∧
    (build "/home/ann" {} untidyDocument).result = .ok tidyProject ∧
    (build "/home/ann" {} tidyDocument).notes.Perm
      (build "/home/ann" {} untidyDocument).notes := by
  refine ⟨tidy_untidy, ?_⟩
  rcases build_fieldOrder "/home/ann" {} tidy_untidy with ⟨project, first, second, notes⟩ |
    ⟨⟨e, failed⟩, -⟩
  · rw [build_tidyDocument] at first
    cases first
    exact ⟨second, notes⟩
  · rw [build_tidyDocument] at failed
    cases failed

end SessionPlan.Document
