import SessionPlan.Proofs.Failure
import SessionPlan.Proofs.Settings.Merged
import SessionPlan.Proofs.Tree.Entries
import SessionPlan.Toml.Reader

/-! What is read as TOML is TOML: no value is null, and the keys of a table are texts, all of them
different. Each declaration of a document keeps its tables so, at whatever depth it works. -/
namespace SessionPlan

namespace Tree

/-- Entries of a table. -/
def IsTable (entries : List (Tree × Tree)) : Prop :=
  HaveToml entries ∧ entries.Pairwise fun first later => same first.1 later.1 = false

theorem isToml_mapping {entries : List (Tree × Tree)} :
    (Tree.mapping entries).IsToml ↔ IsTable entries := by
  rw [IsToml, IsTable]

theorem isToml_list {items : List Tree} :
    (Tree.list items).IsToml ↔ ∀ item ∈ items, item.IsToml := by
  rw [IsToml]
  induction items with
  | nil => simp [AreToml]
  | cons item rest ih => simp [AreToml, ih]

theorem haveToml_iff {entries : List (Tree × Tree)} :
    HaveToml entries ↔ ∀ entry ∈ entries, (∃ s, entry.1 = .text s) ∧ entry.2.IsToml := by
  induction entries with
  | nil => simp [HaveToml]
  | cons entry rest ih => simp [HaveToml, ih, and_assoc]

theorem isTable_nil : IsTable [] := ⟨trivial, .nil⟩

/-- A name that is not there yet goes last. -/
theorem IsTable.concat {entries : List (Tree × Tree)} (table : IsTable entries) {name : String}
    (fresh : get? entries name = none) {value : Tree} (toml : value.IsToml) :
    IsTable (entries ++ [(.text name, value)]) := by
  refine ⟨haveToml_iff.mpr ?_, List.pairwise_append.mpr ⟨table.2, List.pairwise_singleton _ _, ?_⟩⟩
  · intro entry member
    rcases List.mem_append.mp member with known | new
    · exact haveToml_iff.mp table.1 entry known
    · rw [List.mem_singleton.mp new]
      exact ⟨⟨name, rfl⟩, toml⟩
  · intro entry known new member
    rw [List.mem_singleton.mp member]
    have none : lookupKey (.text name) entries = none := by simpa [get?] using fresh
    exact Bool.eq_false_iff.mpr (List.find?_eq_none.mp none entry known)

/-- A value takes the place of the one under its name. -/
theorem IsTable.insert {entries : List (Tree × Tree)} (table : IsTable entries) {name : String}
    {old : Tree} (known : get? entries name = some old) {value : Tree} (toml : value.IsToml) :
    IsTable (Tree.insert (.text name) value entries) := by
  have found : ∃ entry ∈ entries, same entry.1 (.text name) = true := by
    obtain ⟨entry, lookup, -⟩ := Option.map_eq_some_iff.mp known
    exact ⟨entry, List.mem_of_find?_eq_some lookup, by simpa using List.find?_some lookup⟩
  refine ⟨haveToml_iff.mpr ?_, ?_⟩
  · refine forall_mem_insert ⟨⟨name, rfl⟩, toml⟩ fun entry member => ?_
    have entryToml := haveToml_iff.mp table.1 entry member
    exact ⟨entryToml, entryToml.1, toml⟩
  · have apart : (entries.map Prod.fst).Pairwise fun first later => same first later = false :=
      List.pairwise_map.mpr table.2
    rw [← map_fst_insert found value] at apart
    exact List.pairwise_map.mp apart

end Tree

namespace Toml
open SessionPlan.Tree

/-- However the computation fails, what it gives is as described. -/
abbrev Gives (described : α → Prop) (x : Except ε α) : Prop :=
  Yields (fun _ => True) described x

/-- What keeps one table as it should be keeps the tables around it so. -/
theorem updateAt_table {intoLists : Bool} {f : Table → Except Flaw Table}
    (change : ∀ t, IsTable t → Gives IsTable (f t)) (key : Key) {t : Table} (table : IsTable t) :
    Gives IsTable (updateAt intoLists f key t) := by
  induction key generalizing t with
  | nil => exact change t table
  | cons k ks ih =>
    unfold updateAt
    split
    · rename_i fresh
      exact (ih isTable_nil).bind fun inner new =>
        .ok (table.concat fresh (isToml_mapping.mpr new))
    · rename_i inner known
      have old := isToml_mapping.mp (table.1.get? known)
      exact (ih old).bind fun inner new => .ok (table.insert known (isToml_mapping.mpr new))
    · rename_i items known
      have old := isToml_list.mp (table.1.get? known)
      split
      · rename_i inner last
        have lastOld := isToml_mapping.mp (old _ (List.mem_of_getLast? last))
        refine (ih lastOld).bind fun inner new => .ok (table.insert known (isToml_list.mpr ?_))
        intro item member
        rcases List.mem_append.mp member with before | here
        · exact old item (List.dropLast_subset _ before)
        · rw [List.mem_singleton.mp here]
          exact isToml_mapping.mpr new
      · exact .error trivial
    · exact .error trivial

theorem addValue_table (taken : Flaw) (name : String) {value : Tree} (toml : value.IsToml)
    (t : Table) (table : IsTable t) : Gives IsTable (addValue taken name value t) := by
  unfold addValue
  split
  · exact .error trivial
  · rename_i fresh
    exact .ok (table.concat (by simpa using fresh) toml)

theorem addToArray_table (name : String) (t : Table) (table : IsTable t) :
    Gives IsTable (addToArray name t) := by
  have empty : (Tree.mapping []).IsToml := isToml_mapping.mpr isTable_nil
  unfold addToArray
  split
  · rename_i fresh
    exact .ok (table.concat fresh (isToml_list.mpr (by simpa using empty)))
  · rename_i items known
    have old := isToml_list.mp (table.1.get? known)
    refine .ok (table.insert known (isToml_list.mpr fun item member => ?_))
    rcases List.mem_append.mp member with before | here
    · exact old item before
    · rw [List.mem_singleton.mp here]
      exact empty
  · exact .error trivial

/-! ### Values -/

theorem placed_gives {described : α → Prop} {r : Except Flaw α} (h : Gives described r)
    (rest : List Char) : Gives described (placed r rest) := by
  cases r with
  | error _ => exact .error trivial
  | ok a => exact .ok (h.gives a rfl)

theorem ofFloat_toml (source : Nat) (x : Float) : (Tree.ofFloat source x).IsToml := by
  unfold Tree.ofFloat
  split <;> simp [IsToml]

/-- However a number is written, it is an integer or a real. -/
theorem decimal?_toml {s : List Char} {found : Except Error (Tree × List Char)}
    (read : decimal? s = some found) : Gives (fun found => found.1.IsToml) found := by
  unfold decimal? at read
  split at read
  split at read
  dsimp only at read
  split at read
  · cases read
  · split at read
    · cases read
      exact .ok (by simp [IsToml])
    · cases read
      refine .ite (.ok ?_) (.ite (.ok ?_) (.error trivial))
      all_goals simp [IsToml]

theorem number?_toml {s : List Char} {found : Except Error (Tree × List Char)}
    (read : number? s = some found) : Gives (fun found => found.1.IsToml) found := by
  unfold number? at read
  split at read
  · cases read
    exact .ok (by simp [IsToml])
  · exact decimal?_toml read

theorem scalar_toml (s : List Char) : Gives (fun found => found.1.IsToml) (scalar s) := by
  unfold scalar
  split
  · refine .ite (.error trivial) ?_
    split
    · exact .ok (by simp [IsToml])
    · exact .ok (by simp [IsToml])
  · split
    · exact .ok (by simp [IsToml])
    · rename_i found known
      exact number?_toml known
    · split
      · exact .ok (ofFloat_toml _ _)
      · exact .error trivial

theorem Inline.assign_table {t : Inline} (table : IsTable t.table) (key : Key) {value : Tree}
    (toml : value.IsToml) : Gives (fun t => IsTable t.table) (t.assign key value) := by
  unfold Inline.assign
  refine .ite (.error trivial) ?_
  exact (updateAt_table (addValue_table _ _ toml) _ table).bind fun _ table => .ok table

mutual

theorem value_toml (fuel : Nat) (s : List Char) :
    Gives (fun found => found.1.IsToml) (value fuel s) := by
  have text {x : Except Error (String × List Char)} :
      Gives (fun found => found.1.IsToml) (x.map fun found => (Tree.text found.1, found.2)) := by
    cases x with
    | error _ => exact .error trivial
    | ok _ => exact .ok (by simp [IsToml])
  match fuel with
  | 0 =>
    rw [value]
    exact .error trivial
  | fuel + 1 =>
    unfold value
    split
    · exact text
    · exact text
    · exact text
    · exact text
    · refine (Yields.whatever _).bind fun rest _ => ?_
      exact (items_toml fuel rest).bind fun _ each => .ok (isToml_list.mpr each)
    · split
      · exact .ok (isToml_mapping.mpr isTable_nil)
      · exact (inlineEntries_table fuel isTable_nil _).bind fun _ table =>
          .ok (isToml_mapping.mpr table)
    · refine .ite (.ok ?_) (.ite (.ok ?_) (scalar_toml _))
      · simp [IsToml]
      · simp [IsToml]

theorem items_toml (fuel : Nat) (s : List Char) :
    Gives (fun found => ∀ item ∈ found.1, item.IsToml) (items fuel s) := by
  match fuel with
  | 0 =>
    rw [items]
    exact .error trivial
  | fuel + 1 =>
    unfold items
    split
    · exact .ok nofun
    · refine (value_toml fuel _).bind fun first toml => ?_
      refine (Yields.whatever _).bind fun rest _ => ?_
      split
      · exact .ok (by simpa using toml)
      · refine (Yields.whatever _).bind fun rest _ => ?_
        exact (items_toml fuel rest).bind fun others each =>
          .ok (List.forall_mem_cons.mpr ⟨toml, each⟩)
      · exact .error trivial

theorem inlineEntries_table (fuel : Nat) {t : Inline} (table : IsTable t.table) (s : List Char) :
    Gives (fun found => IsTable found.1) (inlineEntries fuel t s) := by
  match fuel with
  | 0 =>
    rw [inlineEntries]
    exact .error trivial
  | fuel + 1 =>
    rw [inlineEntries]
    refine (pair_toml fuel s).bind fun found toml => ?_
    refine (placed_gives (Inline.assign_table table _ toml) _).bind fun t table => ?_
    split
    · exact .ok table
    · exact inlineEntries_table fuel table _
    · exact .error trivial

theorem pair_toml (fuel : Nat) (s : List Char) :
    Gives (fun found => found.2.1.IsToml) (pair fuel s) := by
  match fuel with
  | 0 =>
    rw [pair]
    exact .error trivial
  | fuel + 1 =>
    rw [pair]
    refine (Yields.whatever _).bind fun ⟨key, rest⟩ _ => ?_
    dsimp only
    split
    · exact (value_toml fuel _).bind fun _ toml => .ok toml
    · exact .error trivial

end

/-! ### Documents -/

theorem openTable_table {d : Draft} (table : IsTable d.tables) (key : Key) :
    Gives (fun d => IsTable d.tables) (d.openTable key) :=
  .ite (.error trivial) <| (updateAt_table (fun _ table => .ok table) key table).bind
    fun _ table => .ok table

theorem openArrayTable_table {d : Draft} (table : IsTable d.tables) (key : Key) :
    Gives (fun d => IsTable d.tables) (d.openArrayTable key) :=
  .ite (.error trivial) <| (updateAt_table (addToArray_table _) _ table).bind
    fun _ table => .ok table

theorem assign_table {d : Draft} (table : IsTable d.tables) (key : Key) {value : Tree}
    (toml : value.IsToml) : Gives (fun d => IsTable d.tables) (d.assign key value) := by
  unfold Draft.assign
  dsimp only
  split
  · exact .error trivial
  · exact .ite (.error trivial) <| (updateAt_table (addValue_table _ _ toml) _ table).bind
      fun _ table => .ok table

theorem tableHeader_table {d : Draft} (table : IsTable d.tables) (s : List Char) :
    Gives (fun found => IsTable found.1.tables) (tableHeader d s) := by
  refine (Yields.whatever _).bind fun ⟨key, rest⟩ _ => ?_
  have settled : IsTable ({ d with closed := d.closed.settle } : Draft).tables := table
  refine (placed_gives (openTable_table settled key) rest).bind fun d table => ?_
  split
  · exact .ok table
  · exact .error trivial

theorem arrayTableHeader_table {d : Draft} (table : IsTable d.tables) (s : List Char) :
    Gives (fun found => IsTable found.1.tables) (arrayTableHeader d s) := by
  refine (Yields.whatever _).bind fun ⟨key, rest⟩ _ => ?_
  have settled : IsTable ({ d with closed := d.closed.settle } : Draft).tables := table
  refine (placed_gives (openArrayTable_table settled key) rest).bind fun d table => ?_
  split
  · exact .ok table
  · exact .error trivial

theorem statement_table {d : Draft} (table : IsTable d.tables) (s : List Char) :
    Gives (fun found => IsTable found.1.tables) (statement d s) := by
  unfold statement
  split
  · exact arrayTableHeader_table table _
  · exact tableHeader_table table _
  · exact .ok table
  · refine .ite ?_ (.error trivial)
    refine (pair_toml _ _).bind fun found toml => ?_
    exact (placed_gives (assign_table table _ toml) _).bind fun _ table => .ok table
  · exact .ok table

theorem statements_table (fuel : Nat) {d : Draft} (table : IsTable d.tables) (s : List Char) :
    Gives (fun d => IsTable d.tables) (statements fuel d s) := by
  induction fuel generalizing d s with
  | zero => exact .ok table
  | succ fuel ih =>
    unfold statements
    split
    · exact .ok table
    · exact ih table _
    · refine (statement_table table _).bind fun found table => ?_
      refine (Yields.whatever _).bind fun rest _ => ?_
      split
      · exact .ok table
      · exact ih table _
      · exact .error trivial

theorem parse_toml {text : String} {table : Table} (parsed : parse text = .ok table) :
    (Tree.mapping table).IsToml := by
  unfold parse at parsed
  dsimp only at parsed
  split at parsed
  · rename_i d read
    cases parsed
    exact isToml_mapping.mpr ((statements_table _ isTable_nil _).gives d read)
  · cases parsed

end Toml
end SessionPlan
