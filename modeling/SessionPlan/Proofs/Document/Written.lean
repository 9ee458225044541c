import SessionPlan.Proofs.Document.Fields
import SessionPlan.Proofs.Document.WellFormed

/-! A project that is written as a document and read again. Each field is written where it says
something, under its own name, and what is left out is the default that the reader fills in, so
reading gives the project back. -/
namespace SessionPlan.Document
open SessionPlan.Text

/-- Sizes of digits only are written as numbers: those of the pane come back only if they are
written as numbers are. -/
def PlainSize (p : Pane) : Prop := ∀ s ∈ p.splitSize, isDigits s = true → IsDecimal s

theorem coherent_pane : Coherent paneVocabulary := by intro f; cases f <;> decide
theorem coherent_window : Coherent windowVocabulary := by intro f; cases f <;> decide
theorem coherent_project : Coherent projectVocabulary := by intro f; cases f <;> decide

theorem isJson_texts (lines : List String) : (Tree.texts lines).IsJson := by
  rw [Tree.texts, Tree.IsJson]
  induction lines with
  | nil => trivial
  | cons c rest ih => exact ⟨trivial, ih⟩

theorem isJson_commandsTree? {lines : List String} {t : Tree}
    (h : commandsTree? lines = some t) : t.IsJson := by
  match lines with
  | [] => cases h
  | [c] => cases h; trivial
  | c :: d :: rest => cases h; exact isJson_texts _

/-! ### Panes -/

/-- The fields of a pane besides its commands. -/
def paneOrder : List PaneField :=
  [.name, .workingDir, .split, .splitFrom, .splitSize, .clear, .onCreate, .postCreate]

/-- What a pane is written as, field by field; its size is written already. -/
def paneValue (home : String) (p : Pane) (size : Option Tree) : PaneField → Option Tree
  | .name => p.name.map .text
  | .workingDir => (p.workingDir.map (Path.contractHome home)).map .text
  | .split => (p.split.map SplitDirection.name).map .text
  | .splitFrom => p.splitFrom.map .int
  | .splitSize => size
  | .clear => if p.clear then some (.flag true) else none
  | .onCreate => commandsTree? p.onCreate
  | .postCreate => commandsTree? p.postCreate
  | .commands => commandsTree? p.commands

theorem size_written {home : String} {number : Int} {p : Pane} (formed : p.WellFormed home number)
    (plain : PlainSize p) : ∃ size, p.splitSize.mapM splitSizeTree = .ok size ∧
      ∀ path, splitSize path (size.getD .null) = .ok p.splitSize := by
  cases found : p.splitSize with
  | none => exact ⟨none, rfl, fun _ => rfl⟩
  | some s =>
    have size := formed.splitSize s found
    obtain ⟨tree, written, -⟩ := splitSize_splitSizeTree "" size (plain s found)
    refine ⟨some tree, by simp [written], fun path => ?_⟩
    obtain ⟨other, again, read⟩ := splitSize_splitSizeTree path size (plain s found)
    rw [written] at again
    cases again
    exact read

theorem paneFields_written {home : String} {p : Pane} {size : Option Tree}
    (h : p.splitSize.mapM splitSizeTree = .ok size) :
    paneFields home p = .ok (written paneVocabulary paneOrder (paneValue home p size)) := by
  rw [paneFields, h, ok_bind]
  simp only [paneOrder, written_cons, written_nil, List.append_assoc, List.append_nil]
  cases clear : p.clear <;> simp only [paneValue, clear] <;> rfl

theorem paneOfFields_written {home path : String} {number : Int} {p : Pane} {size : Option Tree}
    (absolute : Path.IsAbsolute home) (formed : p.WellFormed home number)
    (sizeRead : splitSize (fieldPath path "split_size") (size.getD .null) = .ok p.splitSize) :
    paneOfFields home path number (paneValue home p size) = .ok p := by
  have typed {own : List String} (place : String) (part : ∀ c ∈ own, c ∈ p.lines) :
      commands place ((commandsTree? own).getD .null) = .ok own :=
    commands_commandsTree? place fun c member => formed.lines c (part c member)
  have onCreate := typed (fieldPath path "on_create") fun c (member : c ∈ p.onCreate) => by
    simp [Pane.lines, member]
  have postCreate := typed (fieldPath path "post_create") fun c (member : c ∈ p.postCreate) => by
    simp [Pane.lines, member]
  have commands := typed (fieldPath path "commands") fun c (member : c ∈ p.commands) => by
    simp [Pane.lines, member]
  simp only [paneOfFields, orNull, paneValue, optionalText_text, splitDirection_name,
    optionalDirectory_contracted _ absolute formed.workingDir, count_int formed.splitFrom, sizeRead,
    clearFlag_flag, onCreate, postCreate, commands, ok_bind, nonempty_eq_self formed.name,
    ← formed.index]
  rfl

/-- A pane of which nothing is written is null, and one of which only a command is written is that
command. Both are read like the fields that they stand for. -/
theorem pane_null {home path : String} {number : Int} {value : PaneField → Option Tree} {p : Pane}
    (read : paneOfFields home path number value = .ok p) (bare : ∀ f, value f = none) :
    pane home path number .null = pure p := by
  obtain rfl : value = fun _ => none := funext bare
  cases read
  rfl

theorem pane_text {home path c : String} {number : Int} {value : PaneField → Option Tree} {p : Pane}
    (read : paneOfFields home path number value = .ok p)
    (bare : ∀ f, value f = if f = .commands then some (.text c) else none) :
    pane home path number (.text c) = pure p := by
  obtain rfl : value = fun f => if f = .commands then some (.text c) else none := funext bare
  cases read
  rfl

theorem pane_mapping {home path : String} {number : Int} {order : List PaneField}
    {value : PaneField → Option Tree} {p : Pane}
    (read : paneOfFields home path number value = .ok p) (distinct : order.Nodup)
    (complete : ∀ f, f ∉ order → value f = none)
    (nonempty : written paneVocabulary order value ≠ []) :
    pane home path number (.mapping (written paneVocabulary order value)) = pure p := by
  rw [pane, entryPairs_written coherent_pane nonempty, Noted.liftM_ok, Noted.pure_bind,
    readFields_written coherent_pane distinct complete, Noted.pure_bind, read]
  rfl

theorem mem_paneOrder (f : PaneField) : f ∈ paneOrder ++ [.commands] := by cases f <;> decide

theorem isJson_splitSizeTree {s : String} {t : Tree} (h : splitSizeTree s = .ok t) :
    t.IsJson := by
  unfold splitSizeTree at h
  split at h
  · obtain ⟨n, -, eq⟩ := bind_eq_ok.mp h; cases eq; trivial
  · cases h; trivial

/-- A value that is one text, one number or one flag. -/
theorem isJson_map {α : Type} {f : α → Tree} (leaf : ∀ a, (f a).IsJson) (o : Option α) :
    ∀ t ∈ o.map f, t.IsJson := by
  intro t member
  obtain ⟨a, -, rfl⟩ := Option.map_eq_some_iff.mp member
  exact leaf a

theorem isJson_text (o : Option String) : ∀ t ∈ o.map Tree.text, t.IsJson :=
  isJson_map (fun _ => by simp [Tree.IsJson]) o

theorem isJson_int (o : Option Int) : ∀ t ∈ o.map Tree.int, t.IsJson :=
  isJson_map (fun _ => by simp [Tree.IsJson]) o

theorem isJson_size {p : Pane} {size : Option Tree}
    (h : p.splitSize.mapM splitSizeTree = .ok size) : ∀ t ∈ size, t.IsJson := by
  cases found : p.splitSize with
  | none => rw [found] at h; cases h; simp
  | some s =>
    rw [found] at h
    obtain ⟨tree, one, eq⟩ := bind_eq_ok.mp h
    cases eq
    rintro _ ⟨⟩
    exact isJson_splitSizeTree one

theorem isJson_paneValue {home : String} {p : Pane} {size : Option Tree}
    (h : p.splitSize.mapM splitSizeTree = .ok size) (f : PaneField) :
    ∀ t ∈ paneValue home p size f, t.IsJson := by
  cases f with
  | name | workingDir | split => exact isJson_text _
  | splitFrom => exact isJson_int _
  | splitSize => exact isJson_size h
  | clear => cases clear : p.clear <;> simp [paneValue, clear, Tree.IsJson]
  | onCreate | postCreate | commands => exact fun _ => isJson_commandsTree?

/-- All fields of a pane, its commands last. -/
theorem paneEntries_written (home : String) (p : Pane) (size : Option Tree) :
    written paneVocabulary (paneOrder ++ [.commands]) (paneValue home p size) =
      written paneVocabulary paneOrder (paneValue home p size) ++
        commandsField "commands" p.commands := by
  rw [written_append, written_cons, written_nil, List.append_nil]
  rfl

theorem pane_written {home : String} {number : Int} {p : Pane} (absolute : Path.IsAbsolute home)
    (formed : p.WellFormed home number) (plain : PlainSize p) :
    ∃ tree, paneTree home p = .ok tree ∧ ∀ path, pane home path number tree = pure p := by
  obtain ⟨size, sizeWritten, sizeRead⟩ := size_written formed plain
  have read (path : String) :=
    paneOfFields_written absolute formed (sizeRead (fieldPath path "split_size"))
  have complete (f : PaneField) (out : f ∉ paneOrder ++ [.commands]) :
      paneValue home p size f = none := absurd (mem_paneOrder f) out
  have mapping (nonempty : written paneVocabulary (paneOrder ++ [.commands])
      (paneValue home p size) ≠ []) (path : String) :=
    pane_mapping (read path) (by decide) complete nonempty
  rw [paneTree, paneFields_written sizeWritten, ok_bind]
  rw [paneEntries_written] at mapping
  cases fields : written paneVocabulary paneOrder (paneValue home p size) with
  | cons first rest =>
    rw [fields] at mapping
    exact ⟨_, rfl, mapping (by simp)⟩
  | nil =>
    have bare := written_eq_nil fields
    rw [fields] at mapping
    match typed : p.commands with
    | [] =>
      refine ⟨.null, rfl, fun path => pane_null (read path) fun f => ?_⟩
      cases f <;> first
        | exact bare _ (by decide)
        | exact congrArg commandsTree? typed
    | [c] =>
      refine ⟨.text c, rfl, fun path => pane_text (read path) fun f => ?_⟩
      cases f <;> first
        | exact bare _ (by decide)
        | exact congrArg commandsTree? typed
    | c :: d :: rest =>
      rw [typed] at mapping
      exact ⟨_, rfl, mapping (by simp [commandsField, commandsTree?, optionalField])⟩

/-- Whatever a pane is written as, JSON text can hold it. -/
theorem paneTree_isJson {home : String} {p : Pane} {tree : Tree}
    (h : paneTree home p = .ok tree) : tree.IsJson := by
  obtain ⟨fields, read, h⟩ := bind_eq_ok.mp h
  obtain ⟨size, sized, -⟩ := bind_eq_ok.mp read
  have mapping : (Tree.mapping (written paneVocabulary (paneOrder ++ [.commands])
      (paneValue home p size))).IsJson :=
    isJson_written coherent_pane (by decide) (isJson_paneValue sized)
  rw [paneFields_written sized] at read
  rw [paneEntries_written] at mapping
  cases read
  split at h
  · cases h; trivial
  · cases h; trivial
  · cases h; exact mapping

/-! ### Windows -/

theorem paneList_written {home : String} {base : Int} (absolute : Path.IsAbsolute home)
    (position : Nat) {list : List Pane} (each : ∀ (j : Nat) (p : Pane), list[j]? = some p →
      p.WellFormed home (base + (position + j : Nat)))
    (plain : ∀ p ∈ list, PlainSize p) :
    ∃ trees, list.mapM (paneTree home) = .ok trees ∧ trees.length = list.length ∧
      ∀ path, paneList home path base position trees = pure list := by
  induction list generalizing position with
  | nil => exact ⟨[], rfl, rfl, fun _ => rfl⟩
  | cons p rest ih =>
    obtain ⟨tree, one, read⟩ :=
      pane_written absolute (each 0 p rfl) (plain p List.mem_cons_self)
    have next (j : Nat) (q : Pane) (found : rest[j]? = some q) :
        q.WellFormed home (base + (position + 1 + j : Nat)) := by
      have formed := each (j + 1) q found
      rwa [show position + (j + 1) = position + 1 + j by omega] at formed
    obtain ⟨trees, many, length, readRest⟩ :=
      ih (position + 1) next fun q member => plain q (List.mem_cons_of_mem _ member)
    refine ⟨tree :: trees, ?_, by simp [length], fun path => ?_⟩
    · rw [List.mapM_cons, one, ok_bind, many]; rfl
    · have first := read (itemPath path position)
      rw [Nat.add_zero] at first
      rw [paneList, first, Noted.pure_bind, readRest, Noted.pure_bind]

/-- A window of one pane of which nothing is written leaves its panes out. -/
def panesValue : List Tree → Option Tree
  | [.null] => none
  | trees => some (.list trees)

theorem panesValue_of_ne {trees : List Tree} (h : trees ≠ [.null]) :
    panesValue trees = some (.list trees) := by
  unfold panesValue
  split
  · exact absurd rfl h
  · rfl

theorem panesField_written {home : String} {list : List Pane} {trees : List Tree}
    (h : list.mapM (paneTree home) = .ok trees) :
    panesField home list = .ok (optionalField "panes" (panesValue trees)) := by
  rw [panesField, h, ok_bind]
  by_cases bare : trees = [.null]
  · subst bare; rfl
  · rw [panesValue_of_ne bare]
    split
    · exact absurd rfl bare
    · rfl

theorem panes_written {home : String} {base : Int} (absolute : Path.IsAbsolute home)
    {list : List Pane} (ne_nil : list ≠ []) (each : ∀ (j : Nat) (p : Pane), list[j]? = some p →
      p.WellFormed home (base + j)) (plain : ∀ p ∈ list, PlainSize p) :
    ∃ trees, list.mapM (paneTree home) = .ok trees ∧
      ∀ path, panes home path base ((panesValue trees).getD .null) = pure list := by
  obtain ⟨trees, many, length, read⟩ := paneList_written absolute 0 (by simpa using each) plain
  refine ⟨trees, many, fun path => ?_⟩
  by_cases bare : trees = [.null]
  · subst bare
    have whole := read path
    simp only [paneList, pane, Noted.pure_bind, Int.natCast_zero, Int.add_zero] at whole
    exact whole
  · cases trees with
    | nil => exact absurd (List.length_eq_zero_iff.mp length.symm) ne_nil
    | cons first rest =>
      rw [panesValue_of_ne bare]
      exact read path

theorem isJson_panesValue {home : String} {list : List Pane} {trees : List Tree}
    (h : list.mapM (paneTree home) = .ok trees) : ∀ t ∈ panesValue trees, t.IsJson := by
  have parts : Tree.AreJson trees := Tree.areJson_iff.mpr fun t member => by
    obtain ⟨p, -, one⟩ := mem_of_mapM_eq_ok h member
    exact paneTree_isJson one
  unfold panesValue
  split
  · simp
  · rintro _ ⟨⟩; exact parts

/-- The fields of a window besides its panes. -/
def windowOrder : List WindowField :=
  [.name, .workingDir, .layout, .onCreate, .postCreate, .onPaneCreate, .postPaneCreate,
    .paneCommands]

/-- What a window is written as, field by field; its panes are written already. -/
def windowValue (home : String) (w : Window) (panes : Option Tree) : WindowField → Option Tree
  | .name => w.name.map .text
  | .workingDir => (w.workingDir.map (Path.contractHome home)).map .text
  | .layout => w.layout.map .text
  | .onCreate => commandsTree? w.onCreate
  | .postCreate => commandsTree? w.postCreate
  | .onPaneCreate => commandsTree? w.onPaneCreate
  | .postPaneCreate => commandsTree? w.postPaneCreate
  | .paneCommands => commandsTree? w.paneCommands
  | .panes => panes

theorem layoutConflict?_of_unsplit {list : List Pane}
    (unsplit : ∀ p ∈ list, p.split = none ∧ p.splitSize = none) (position : Nat) :
    layoutConflict? position list = none := by
  induction list generalizing position with
  | nil => rfl
  | cons p rest ih =>
    obtain ⟨whole, sizeless⟩ := unsplit p List.mem_cons_self
    have later := ih (fun q member => unsplit q (List.mem_cons_of_mem _ member)) (position + 1)
    simp [layoutConflict?, whole, sizeless, later]

theorem checkLayout_of_wellFormed {home : String} {number base : Int} {w : Window} (path : String)
    (formed : w.WellFormed home number base) : checkLayout path w = .ok () := by
  cases found : w.layout with
  | none => simp [checkLayout, found]
  | some layout =>
    have clear := layoutConflict?_of_unsplit (formed.unsplit (by simp [found])) 0
    simp [checkLayout, clear]

theorem windowOfFields_written {home path : String} {number base : Int} {w : Window}
    {panesTree : Option Tree} (absolute : Path.IsAbsolute home)
    (formed : w.WellFormed home number base)
    (panesRead : panes home (fieldPath path "panes") base (panesTree.getD .null) = pure w.panes) :
    windowOfFields home path number base (windowValue home w panesTree) = pure w := by
  have typed {own : List String} (place : String) (part : ∀ c ∈ own, c ∈ w.lines) :
      commands place ((commandsTree? own).getD .null) = .ok own :=
    commands_commandsTree? place fun c member => formed.lines c (part c member)
  have onCreate := typed (fieldPath path "on_create") fun c (member : c ∈ w.onCreate) => by
    simp [Window.lines, member]
  have postCreate := typed (fieldPath path "post_create") fun c (member : c ∈ w.postCreate) => by
    simp [Window.lines, member]
  have onPaneCreate := typed (fieldPath path "on_pane_create")
    fun c (member : c ∈ w.onPaneCreate) => by simp [Window.lines, member]
  have postPaneCreate := typed (fieldPath path "post_pane_create")
    fun c (member : c ∈ w.postPaneCreate) => by simp [Window.lines, member]
  have commands := typed (fieldPath path "pane_commands")
    fun c (member : c ∈ w.paneCommands) => by simp [Window.lines, member]
  have layout : nonempty (w.layout.map strip) = w.layout := by
    cases found : w.layout with
    | none => rfl
    | some s =>
      obtain ⟨ne_empty, trimmed⟩ := formed.layout s found
      simp [nonempty, trimmed.strip_eq, ne_empty]
  simp only [windowOfFields, orNull, windowValue, optionalText_text,
    targetName_text _ _ formed.name, optionalDirectory_contracted _ absolute formed.workingDir,
    onCreate, postCreate, onPaneCreate, postPaneCreate, commands, Noted.liftM_ok, Noted.pure_bind,
    panesRead, layout, ← formed.index]
  rw [checkLayout_of_wellFormed path formed]
  rfl

theorem window_null {home path : String} {number base : Int} {value : WindowField → Option Tree}
    {w : Window} (read : windowOfFields home path number base value = pure w)
    (bare : ∀ f, value f = none) : window home path number base .null = pure w := by
  obtain rfl : value = fun _ => none := funext bare
  rw [← read]
  rfl

theorem window_mapping {home path : String} {number base : Int} {order : List WindowField}
    {value : WindowField → Option Tree} {w : Window}
    (read : windowOfFields home path number base value = pure w) (distinct : order.Nodup)
    (complete : ∀ f, f ∉ order → value f = none)
    (nonempty : written windowVocabulary order value ≠ []) :
    window home path number base (.mapping (written windowVocabulary order value)) = pure w := by
  rw [window, entryPairs_written coherent_window nonempty, Noted.liftM_ok, Noted.pure_bind,
    readFields_written coherent_window distinct complete, Noted.pure_bind, read]

theorem mem_windowOrder (f : WindowField) : f ∈ windowOrder ++ [.panes] := by
  cases f <;> decide

theorem isJson_windowValue {home : String} {w : Window} {panesTree : Option Tree}
    (h : ∀ t ∈ panesTree, t.IsJson) (f : WindowField) :
    ∀ t ∈ windowValue home w panesTree f, t.IsJson := by
  cases f with
  | name | workingDir | layout => exact isJson_text _
  | onCreate | postCreate | onPaneCreate | postPaneCreate | paneCommands =>
    exact fun _ => isJson_commandsTree?
  | panes => exact h

theorem windowFields_written (home : String) (w : Window) (panesTree : Option Tree) :
    textField "name" w.name ++ directoryField home w.workingDir ++ textField "layout" w.layout ++
      commandsField "on_create" w.onCreate ++ commandsField "post_create" w.postCreate ++
      commandsField "on_pane_create" w.onPaneCreate ++
      commandsField "post_pane_create" w.postPaneCreate ++
      commandsField "pane_commands" w.paneCommands ++ optionalField "panes" panesTree =
    written windowVocabulary (windowOrder ++ [.panes]) (windowValue home w panesTree) := by
  simp only [windowOrder, List.cons_append, List.nil_append, written_cons, written_nil,
    List.append_nil, List.append_assoc]
  rfl

theorem windowTree_eq {home : String} {w : Window} {trees : List Tree}
    {entries : List (Tree × Tree)} (h : w.panes.mapM (paneTree home) = .ok trees)
    (whole : written windowVocabulary (windowOrder ++ [.panes])
      (windowValue home w (panesValue trees)) = entries) :
    windowTree home w = .ok (if entries = [] then .null else .mapping entries) := by
  rw [windowTree, panesField_written h, ok_bind]
  rw [windowFields_written, whole]
  cases entries <;> rfl

theorem window_written {home : String} {number base : Int} {w : Window}
    (absolute : Path.IsAbsolute home) (formed : w.WellFormed home number base)
    (plain : ∀ p ∈ w.panes, PlainSize p) :
    ∃ tree, windowTree home w = .ok tree ∧
      ∀ path, window home path number base tree = pure w := by
  obtain ⟨trees, many, panesRead⟩ :=
    panes_written absolute formed.panes_ne_nil formed.panes plain
  have read (path : String) :=
    windowOfFields_written absolute formed (panesRead (fieldPath path "panes"))
  refine ⟨_, windowTree_eq many rfl, ?_⟩
  by_cases bare : written windowVocabulary (windowOrder ++ [.panes])
      (windowValue home w (panesValue trees)) = []
  · rw [if_pos bare]
    exact fun path => window_null (read path) fun f => written_eq_nil bare f (mem_windowOrder f)
  · rw [if_neg bare]
    exact fun path => window_mapping (read path) (by decide)
      (fun f out => absurd (mem_windowOrder f) out) bare

/-- Whatever a window is written as, JSON text can hold it. -/
theorem windowTree_isJson {home : String} {w : Window} {tree : Tree}
    (h : windowTree home w = .ok tree) : tree.IsJson := by
  obtain ⟨field, read, -⟩ := bind_eq_ok.mp h
  obtain ⟨trees, many, -⟩ := bind_eq_ok.mp read
  have mapping : (Tree.mapping (written windowVocabulary (windowOrder ++ [.panes])
      (windowValue home w (panesValue trees)))).IsJson :=
    isJson_written coherent_window (by decide) (isJson_windowValue (isJson_panesValue many))
  rw [windowTree_eq many rfl] at h
  cases h
  split
  · trivial
  · exact mapping

end SessionPlan.Document
