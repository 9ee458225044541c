import SessionPlan.Proofs.Document.RoundTrip
import SessionPlan.Proofs.Document.Winner
import SessionPlan.Proofs.Yaml.Block

/-! The tree of a project stands in blocks, six deep at most: the project, its windows, a window, its
panes, a pane and its commands. No list or mapping in it is empty. -/
namespace SessionPlan
open SessionPlan.Text

namespace Tree
open Yaml

theorem areBlocks_iff {items : List Tree} {room : Nat} :
    AreBlocks items room ↔ ∀ t ∈ items, t.IsBlock room := by
  induction items with
  | nil => simp [AreBlocks]
  | cons x xs ih => simp [AreBlocks, ih]

theorem haveBlocks_iff {entries : List (Tree × Tree)} {room : Nat} :
    HaveBlocks entries room ↔
      ∀ e ∈ entries, (∃ name, e.1 = .text name ∧ IsName name) ∧ e.2.IsBlock room := by
  induction entries with
  | nil => simp [HaveBlocks]
  | cons e rest ih => simp [HaveBlocks, ih, and_assoc]

mutual

theorem IsBlock.isJson : ∀ {t : Tree} {room : Nat}, t.IsBlock room → t.IsJson
  | .null, _, _ | .flag _, _, _ | .int _, _, _ | .text _, _, _ => trivial
  | .list _, _, block => AreBlocks.areJson block.2.2
  | .mapping _, _, block => ⟨HaveBlocks.haveJson block.2.2.1, block.2.2.2⟩

theorem AreBlocks.areJson : ∀ {items : List Tree} {room : Nat}, AreBlocks items room → AreJson items
  | [], _, _ => trivial
  | _ :: _, _, block => ⟨IsBlock.isJson block.1, AreBlocks.areJson block.2⟩

theorem HaveBlocks.haveJson : ∀ {entries : List (Tree × Tree)} {room : Nat},
    HaveBlocks entries room → HaveJson entries
  | [], _, _ => trivial
  | (_, _) :: _, _, ⟨⟨name, named, _⟩, value, rest⟩ =>
    ⟨⟨name, named⟩, IsBlock.isJson value, HaveBlocks.haveJson rest⟩

end

/-! ### Doubling dollar signs -/

/-- A name has no dollar sign. -/
theorem escapeText_name {name : String} (short : IsName name) : escapeText name = name := by
  have single : ∀ c ∈ name.toList, (if c = '$' then ['$', '$'] else [c]) = [c] := by
    have table : ∀ c ∈ nameChars, c ≠ '$' := List.all_iff_forall_prop.mp (by decide)
    exact fun c member => if_neg (table c (short.chars c member))
  rw [escapeText, List.flatMap_congr single, List.flatMap_singleton', String.ofList_toList]

theorem escapeItems_ne_nil {items : List Tree} (nonempty : items ≠ []) : escapeItems items ≠ [] := by
  cases items with
  | nil => exact absurd rfl nonempty
  | cons x xs => simp [escapeItems]

theorem escapeEntries_ne_nil {entries : List (Tree × Tree)} (nonempty : entries ≠ []) :
    escapeEntries entries ≠ [] := by
  cases entries with
  | nil => exact absurd rfl nonempty
  | cons e rest => simp [escapeEntries]

mutual

theorem IsBlock.escape : ∀ {t : Tree} {room : Nat}, t.IsBlock room → t.escape.IsBlock room
  | .null, _, _ | .flag _, _, _ | .int _, _, _ | .text _, _, _ => trivial
  | .list items, _, block => by
    rw [Tree.escape]
    exact ⟨escapeItems_ne_nil block.1, block.2.1, AreBlocks.escapeItems block.2.2⟩
  | .mapping entries, _, block => by
    have json := IsJson.escape (IsBlock.isJson block)
    rw [Tree.escape] at json ⊢
    exact ⟨escapeEntries_ne_nil block.1, block.2.1, HaveBlocks.escapeEntries block.2.2.1, json.2⟩

theorem AreBlocks.escapeItems : ∀ {items : List Tree} {room : Nat},
    AreBlocks items room → AreBlocks (escapeItems items) room
  | [], _, _ => trivial
  | _ :: _, _, block => ⟨IsBlock.escape block.1, AreBlocks.escapeItems block.2⟩

theorem HaveBlocks.escapeEntries : ∀ {entries : List (Tree × Tree)} {room : Nat},
    HaveBlocks entries room → HaveBlocks (escapeEntries entries) room
  | [], _, _ => trivial
  | (_, _) :: _, _, ⟨⟨name, named, short⟩, value, rest⟩ =>
    ⟨⟨name, by rw [named, Tree.escape, escapeText_name short], short⟩, IsBlock.escape value,
      HaveBlocks.escapeEntries rest⟩

end
end Tree

namespace Document
open SessionPlan.Tree Yaml

/-! ### Fields -/

variable {F : Type} [DecidableEq F]

/-- A mapping of written fields stands in blocks if all their values do. -/
theorem isBlock_written {v : Vocabulary F} (coherent : Coherent v)
    (names : ∀ f, IsName (v.canonical f)) (order : List F) (distinct : order.Nodup)
    {value : F → Option Tree} {room : Nat} (values : ∀ f, ∀ t ∈ value f, t.IsBlock room)
    (nonempty : written v order value ≠ []) :
    (Tree.mapping (written v order value)).IsBlock (room + 1) := by
  have json := isJson_written coherent distinct fun f t member => (values f t member).isJson
  refine ⟨nonempty, Nat.succ_pos room, haveBlocks_iff.mpr fun e member => ?_, json.2⟩
  obtain ⟨⟨f, t⟩, known, rfl⟩ := List.mem_map.mp member
  exact ⟨⟨_, rfl, names f⟩, values f t (mem_given.mp known).2⟩

theorem isName_of_complete {v : Vocabulary F} (complete : v.Complete)
    (named : (v.names.map Prod.fst).all (fun f => isNameText (v.canonical f)) = true) (f : F) :
    IsName (v.canonical f) :=
  isNameText_iff.mp (List.all_eq_true.mp named f (complete.all f))

theorem isName_pane (f : PaneField) : IsName (paneVocabulary.canonical f) :=
  isName_of_complete complete_pane (by decide +kernel) f

theorem isName_window (f : WindowField) : IsName (windowVocabulary.canonical f) :=
  isName_of_complete complete_window (by decide +kernel) f

theorem isName_project (f : ProjectField) : IsName (projectVocabulary.canonical f) :=
  isName_of_complete complete_project (by decide +kernel) f

/-! ### Values -/

theorem isBlock_commandsTree? {lines : List String} {t : Tree} (h : commandsTree? lines = some t)
    (room : Nat) : t.IsBlock (room + 1) := by
  match lines with
  | [] => cases h
  | [c] => cases h; trivial
  | c :: d :: rest =>
    cases h
    refine ⟨List.cons_ne_nil _ _, Nat.succ_pos room, areBlocks_iff.mpr fun t member => ?_⟩
    obtain ⟨line, -, rfl⟩ := List.mem_map.mp member
    trivial

/-- A value that is one text, one number or one flag. -/
theorem isBlock_map {α : Type} {f : α → Tree} {room : Nat} (leaf : ∀ a, (f a).IsBlock room)
    (o : Option α) : ∀ t ∈ o.map f, t.IsBlock room := by
  intro t member
  obtain ⟨a, -, rfl⟩ := Option.map_eq_some_iff.mp member
  exact leaf a

theorem isBlock_text (o : Option String) (room : Nat) : ∀ t ∈ o.map Tree.text, t.IsBlock room :=
  isBlock_map (fun _ => by simp [Tree.IsBlock]) o

theorem isBlock_int (o : Option Int) (room : Nat) : ∀ t ∈ o.map Tree.int, t.IsBlock room :=
  isBlock_map (fun _ => by simp [Tree.IsBlock]) o

theorem isBlock_selectorTree (o : Option Selector) (room : Nat) :
    ∀ t ∈ o.map selectorTree, t.IsBlock room :=
  isBlock_map (fun s => by cases s <;> trivial) o

theorem isBlock_splitSizeTree {s : String} {t : Tree} (h : splitSizeTree s = .ok t) (room : Nat) :
    t.IsBlock room := by
  unfold splitSizeTree at h
  split at h
  · obtain ⟨n, -, eq⟩ := bind_eq_ok.mp h
    cases eq
    trivial
  · cases h
    trivial

theorem isBlock_size {p : Pane} {size : Option Tree}
    (h : p.splitSize.mapM splitSizeTree = .ok size) (room : Nat) : ∀ t ∈ size, t.IsBlock room := by
  cases found : p.splitSize with
  | none =>
    rw [found] at h
    cases h
    simp
  | some s =>
    rw [found] at h
    obtain ⟨tree, one, eq⟩ := bind_eq_ok.mp h
    cases eq
    rintro _ ⟨⟩
    exact isBlock_splitSizeTree one room

theorem isBlock_paneValue (home : String) {p : Pane} {size : Option Tree}
    (h : p.splitSize.mapM splitSizeTree = .ok size) (f : PaneField) :
    ∀ t ∈ paneValue home p size f, t.IsBlock 1 := by
  cases f with
  | name | workingDir | split => exact isBlock_text _ 1
  | splitFrom => exact isBlock_int _ 1
  | splitSize => exact isBlock_size h 1
  | clear => cases clear : p.clear <;> simp [paneValue, clear, Tree.IsBlock]
  | onCreate | postCreate | commands => exact fun _ found => isBlock_commandsTree? found 0

/-! ### Panes, windows and projects -/

theorem paneTree_isBlock {home : String} {p : Pane} {tree : Tree}
    (h : paneTree home p = .ok tree) : tree.IsBlock 2 := by
  obtain ⟨fields, read, h⟩ := bind_eq_ok.mp h
  obtain ⟨size, sized, -⟩ := bind_eq_ok.mp read
  have mapping := isBlock_written coherent_pane isName_pane (paneOrder ++ [.commands])
    (by decide) (isBlock_paneValue home sized)
  rw [paneFields_written sized] at read
  rw [paneEntries_written] at mapping
  cases read
  split at h
  · cases h
    trivial
  · cases h
    trivial
  · rename_i bare single
    cases h
    refine mapping fun nothing => ?_
    obtain ⟨unwritten, untyped⟩ := List.append_eq_nil_iff.mp nothing
    cases typed : p.commands with
    | nil => exact bare unwritten typed
    | cons c rest =>
      rw [typed] at untyped
      cases rest <;> cases untyped

theorem isBlock_panesValue {home : String} {list : List Pane} (nonempty : list ≠ [])
    {trees : List Tree} (h : list.mapM (paneTree home) = .ok trees) :
    ∀ t ∈ panesValue trees, t.IsBlock 3 := by
  have parts : AreBlocks trees 2 := areBlocks_iff.mpr fun t member => by
    obtain ⟨p, -, one⟩ := mem_of_mapM_eq_ok h member
    exact paneTree_isBlock one
  unfold panesValue
  split
  · simp
  · rintro _ ⟨⟩
    exact ⟨ne_nil_of_mapM_eq_ok nonempty h, by decide, parts⟩

theorem isBlock_windowValue (home : String) {w : Window} {panesTree : Option Tree}
    (h : ∀ t ∈ panesTree, t.IsBlock 3) (f : WindowField) :
    ∀ t ∈ windowValue home w panesTree f, t.IsBlock 3 := by
  cases f with
  | name | workingDir | layout => exact isBlock_text _ 3
  | onCreate | postCreate | onPaneCreate | postPaneCreate | paneCommands =>
    exact fun _ found => isBlock_commandsTree? found 2
  | panes => exact h

theorem windowTree_isBlock {home : String} {w : Window} (nonempty : w.panes ≠ []) {tree : Tree}
    (h : windowTree home w = .ok tree) : tree.IsBlock 4 := by
  obtain ⟨field, read, -⟩ := bind_eq_ok.mp h
  obtain ⟨trees, many, -⟩ := bind_eq_ok.mp read
  have mapping := isBlock_written coherent_window isName_window (windowOrder ++ [.panes])
    (by decide) (isBlock_windowValue home (w := w) (isBlock_panesValue nonempty many))
  rw [windowTree_eq many rfl] at h
  cases h
  split
  · trivial
  · rename_i entries
    exact mapping entries

theorem isBlock_projectValue {home : String} {p : Project} {trees : List Tree}
    (parts : (Tree.list trees).IsBlock 5) (f : ProjectField) :
    ∀ t ∈ projectValue home p trees f, t.IsBlock 5 := by
  cases f with
  | sessionName | tmuxCommand | tmuxOptions | tmuxSocket | workingDir => exact isBlock_text _ 5
  | windowBaseIndex | paneBaseIndex | startupPane => exact isBlock_int _ 5
  | startupWindow => exact isBlock_selectorTree _ 5
  | onStart | onFirstStart | onRestart | onExit | onStop | postCreate | onPaneCreate
  | postPaneCreate | paneCommands => exact fun _ found => isBlock_commandsTree? found 4
  | attach => cases attach : p.attach <;> simp [projectValue, attach, Tree.IsBlock]
  | detached => simp [projectValue]
  | windows =>
    rintro _ ⟨⟩
    exact parts

/-- What a project is written as, for a project with windows that have panes. -/
theorem outline_isBlock {home : String} {p : Project} (windows : p.windows ≠ [])
    (panes : ∀ w ∈ p.windows, w.panes ≠ []) {tree : Tree} (h : outline home p = .ok tree) :
    ∃ entries, tree = .mapping entries ∧ tree.IsBlock 6 := by
  obtain ⟨trees, many, -⟩ := bind_eq_ok.mp h
  have parts : AreBlocks trees 4 := areBlocks_iff.mpr fun t member => by
    obtain ⟨w, inside, one⟩ := mem_of_mapM_eq_ok many member
    exact windowTree_isBlock (panes w inside) one
  have list : (Tree.list trees).IsBlock 5 := ⟨ne_nil_of_mapM_eq_ok windows many, by decide, parts⟩
  have nonempty : written projectVocabulary projectOrder (projectValue home p trees) ≠ [] := by
    intro nothing
    have missing := written_eq_nil nothing .windows (by decide)
    cases missing
  have mapping := isBlock_written coherent_project isName_project _ (by decide)
    (isBlock_projectValue list) nonempty
  rw [outline_eq many] at h
  cases h
  exact ⟨_, rfl, mapping.escape⟩

end Document
end SessionPlan
