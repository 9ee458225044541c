import SessionPlan.Proofs.Settings.Paths

/-! Nested tables laid over one another, value by value. What stands at a path comes from the upper
table or, where that lets the path through, from the lower one; and what has been laid over a table
once changes nothing when it is laid over it again. -/
namespace SessionPlan.Settings
open SessionPlan.Tree (same IsFound same_symm same_trans)

variable {base entries : List (Tree × Tree)} {path : List Tree}

theorem overlaid_leaf {value : Tree} (leaf : isTable value = false) (old : Option Tree) :
    overlaid old value = value := by
  rw [overlaid]
  exact ne_mapping_of_leaf leaf

theorem overlaid_none (value : Tree) : overlaid none value = value :=
  overlaid_of_leaf (fun _ => (Option.some_ne_none _).symm) value

/-- What the upper table has under a key goes over what the lower one has there. -/
theorem valueAt_overlay (lower : ∀ entry ∈ base, IsFound entry.1)
    (upper : ∀ entry ∈ entries, IsFound entry.1)
    (apart : entries.Pairwise fun first later => same first.1 later.1 = false)
    {key : Tree} (keyFound : IsFound key) :
    valueAt key (overlay base entries) =
      match valueAt key entries with
      | none => valueAt key base
      | some value => some (overlaid (valueAt key base) value) := by
  induction entries generalizing base with
  | nil => rfl
  | cons entry rest ih =>
    obtain ⟨k, v⟩ := entry
    obtain ⟨fresh, apart⟩ := List.pairwise_cons.mp apart
    obtain ⟨kFound, later⟩ := List.forall_mem_cons.mp upper
    let entered := Tree.insert k (overlaid (valueAt k base) v) base
    have known : ∀ entry ∈ entered, IsFound entry.1 :=
      Tree.forall_mem_insert (P := fun entry => IsFound entry.1) kFound fun entry member =>
        ⟨lower entry member, lower entry member⟩
    have step : overlay base ((k, v) :: rest) = overlay entered rest := overlay.eq_2 ..
    rw [step, ih known later apart, valueAt_cons, valueAt_insert keyFound kFound lower]
    by_cases here : same k key = true
    · have absent : valueAt key rest = none := by
        refine valueAt_eq_none fun other member => ?_
        rw [Bool.eq_false_iff]
        intro there
        have otherFound := later other member
        have meets := same_trans kFound keyFound otherFound here
          (same_symm otherFound keyFound there)
        rw [fresh other member] at meets
        cases meets
      rw [absent, if_pos here, if_pos here, valueAt_congr kFound keyFound here lower]
    · rw [if_neg here, if_neg here]

/-- What stands at a path is what the lower tree has there, if the upper one lets the path through,
and else what the upper one has there, over what the lower one has. -/
theorem atPath?_overlaid (known : ∀ key ∈ path, IsFound key) {value : Tree}
    (nested : IsNested value) {old : Option Tree} (olds : ∀ t ∈ old, IsNested t) :
    (Passes value path → atPath? path (overlaid old value) = old.bind (atPath? path)) ∧
    (¬Passes value path → atPath? path (overlaid old value) =
      (atPath? path value).map (overlaid (old.bind (atPath? path)))) := by
  induction path generalizing value old with
  | nil =>
    refine ⟨fun passes => absurd passes (not_passes_nil value), fun _ => ?_⟩
    cases old <;> rfl
  | cons key path ih =>
    obtain ⟨keyFound, known⟩ := List.forall_mem_cons.mp known
    cases table : isTable value with
    | false =>
      refine ⟨fun passes => absurd passes (not_passes_of_leaf table key path), fun _ => ?_⟩
      rw [overlaid_leaf table, atPath?_of_leaf (ne_mapping_of_leaf table)]
      rfl
    | true =>
      obtain ⟨entries, rfl⟩ := isTable_iff.mp table
      obtain ⟨upper, apart⟩ := nested
      rw [passes_mapping, atPath?]
      by_cases both : ∃ base, old = some (.mapping base)
      · obtain ⟨base, rfl⟩ := both
        have lower := (olds _ rfl).1
        rw [overlaid, atPath?, valueAt_overlay lower.isFound upper.isFound apart keyFound,
          Option.bind_some, atPath?]
        cases found : valueAt key entries with
        | none =>
          exact ⟨fun _ => rfl,
            fun stops => absurd (fun v there => absurd there.symm (Option.some_ne_none v)) stops⟩
        | some v => simpa using ih known (upper.valueAt found) fun _ => lower.valueAt
      · have leaf : ∀ base, old ≠ some (.mapping base) := not_exists.mp both
        have nothing : old.bind (atPath? (key :: path)) = none := by
          rw [Option.bind_eq_none_iff]
          rintro t rfl
          exact atPath?_of_leaf (fun base table => leaf base (table ▸ rfl)) key path
        rw [overlaid_of_leaf leaf, nothing, atPath?]
        cases found : valueAt key entries with
        | none => exact ⟨fun _ => rfl, fun _ => rfl⟩
        | some v =>
          have alone : overlaid none = id := funext overlaid_none
          refine ⟨fun passes => (passes v rfl).nothing, fun _ => ?_⟩
          rw [alone, Option.map_id]
          rfl

/-- The keys of the lower table stay where they are, and the new ones follow in their order. -/
theorem keys_overlay (apart : entries.Pairwise fun first later => same first.1 later.1 = false) :
    (overlay base entries).map Prod.fst =
      base.map Prod.fst ++
        (entries.map Prod.fst).filter fun key => (base.map Prod.fst).all fun k => !same k key := by
  induction entries generalizing base with
  | nil => simp [overlay]
  | cons entry rest ih =>
    obtain ⟨key, value⟩ := entry
    obtain ⟨fresh, apart⟩ := List.pairwise_cons.mp apart
    rw [overlay, ih apart, List.map_cons, List.filter_cons]
    by_cases known : ∃ entry ∈ base, same entry.1 key = true
    · rw [Tree.map_fst_insert known, if_neg (by simpa using known)]
    · have absent : ∀ entry ∈ base, same entry.1 key = false := by simpa using known
      rw [Tree.insert_of_fresh absent, if_pos (by simpa using absent), List.map_append,
        List.append_assoc]
      congr 1
      rw [List.map_singleton, List.singleton_append]
      congr 1
      -- no later key is the one that has just come in
      refine List.filter_congr fun k member => ?_
      obtain ⟨entry, there, rfl⟩ := List.mem_map.mp member
      rw [List.all_append, List.all_cons, fresh entry there]
      simp

/-! ### Once more -/

/-- A table is not changed by values that its own values come from already. -/
theorem overlay_of_settled
    (settled : ∀ entry ∈ entries, ∃ old, valueAt entry.1 base = some old ∧
      overlaid (some old) entry.2 = old) : overlay base entries = base := by
  induction entries with
  | nil => rfl
  | cons entry rest ih =>
    obtain ⟨key, value⟩ := entry
    obtain ⟨⟨old, found, stays⟩, later⟩ := List.forall_mem_cons.mp settled
    have here : (Tree.lookupKey key base).map Prod.snd = some old := found
    rw [overlay, here, stays, insert_of_valueAt found, ih later]

mutual

theorem overlaid_again : ∀ value : Tree, IsNested value →
    ∀ old : Option Tree, (∀ t ∈ old, IsNested t) →
      overlaid (some (overlaid old value)) value = overlaid old value
  | .mapping entries, ⟨upper, apart⟩, old, olds => by
    have again := overlaidEntries_again entries upper
    by_cases both : ∃ base, old = some (.mapping base)
    · obtain ⟨base, rfl⟩ := both
      have lower := (olds _ rfl).1
      rw [overlaid, overlaid]
      congr 1
      refine overlay_of_settled fun entry member => ?_
      have found := valueAt_overlay lower.isFound upper.isFound apart (upper.isFound entry member)
      rw [valueAt_of_mem upper.isFound apart member] at found
      exact ⟨_, found, again entry member _ fun _ => lower.valueAt⟩
    · rw [overlaid_of_leaf (not_exists.mp both), overlaid]
      congr 1
      refine overlay_of_settled fun entry member => ?_
      have self := again entry member none nofun
      rw [overlaid_none] at self
      exact ⟨entry.2, valueAt_of_mem upper.isFound apart member, self⟩
  | .null, _, _, _ | .flag _, _, _, _ | .int _, _, _, _ | .real _, _, _, _ | .nan _, _, _, _
  | .text _, _, _, _ | .list _, _, _, _ | .tuple _, _, _, _ | .set _, _, _, _ | .bytes _, _, _, _
  | .date _, _, _, _ | .moment _, _, _, _ | .clock _, _, _, _ | .cycle, _, _, _ => by
    simp only [overlaid]

theorem overlaidEntries_again : ∀ entries : List (Tree × Tree), HaveNested entries →
    ∀ entry ∈ entries, ∀ old : Option Tree, (∀ t ∈ old, IsNested t) →
      overlaid (some (overlaid old entry.2)) entry.2 = overlaid old entry.2
  | [], _, _, member, _, _ => nomatch member
  | (key, value) :: rest, ⟨_, first, later⟩, entry, member, old, olds => by
    rcases List.mem_cons.mp member with here | there
    · cases here
      exact overlaid_again value first old olds
    · exact overlaidEntries_again rest later entry there old olds

end

/-! ### Merged tables -/

/-- The keys of the table at a path, if there is one. -/
def keysAt (path : List Tree) (t : Tree) : List Tree :=
  match atPath? path t with
  | some (.mapping entries) => entries.map Prod.fst
  | _ => []

theorem keysAt_of_table {t : Tree} (found : atPath? path t = some (.mapping entries)) :
    keysAt path t = entries.map Prod.fst := by
  rw [keysAt, found]

theorem keysAt_eq_nil {t : Tree} (bare : ∀ table, atPath? path t ≠ some (.mapping table)) :
    keysAt path t = [] := by
  unfold keysAt
  split
  · rename_i table found
    exact absurd found (bare table)
  · rfl

/-- What is where in two nested tables merged into one, for every path of keys. -/
structure IsMerged (base override merged : Tree) : Prop where
  /-- A value of the upper table that is no table is in the merged one. -/
  given : ∀ path value, (∀ key ∈ path, IsFound key) → isTable value = false →
    atPath? path override = some value → atPath? path merged = some value
  /-- A value of the lower table that is no table stays just if the upper one lets its path through;
  elsewhere the merged one has what the upper one has, be it nothing. -/
  kept : ∀ path value, (∀ key ∈ path, IsFound key) → isTable value = false →
    atPath? path base = some value →
      (atPath? path override = none ∧ atPath? path merged = some value ↔ Passes override path) ∧
      (¬Passes override path → atPath? path merged = atPath? path override)
  /-- No other values are in it but tables. -/
  origin : ∀ path value, (∀ key ∈ path, IsFound key) → isTable value = false →
    atPath? path merged = some value →
      atPath? path override = some value ∨ atPath? path base = some value ∧ Passes override path
  /-- It has the tables of the upper one, and those of the lower one that are let through. -/
  tables : ∀ path, (∀ key ∈ path, IsFound key) →
    ((∃ table, atPath? path merged = some (.mapping table)) ↔
      (∃ table, atPath? path override = some (.mapping table)) ∨
        (∃ table, atPath? path base = some (.mapping table)) ∧ Passes override path)
  /-- Their keys are those of the lower one, in their order, and then the new ones of the upper one,
  in theirs. -/
  keys : ∀ path table, (∀ key ∈ path, IsFound key) → atPath? path merged = some (.mapping table) →
    table.map Prod.fst = keysAt path base ++
      (keysAt path override).filter fun key => (keysAt path base).all fun k => !same k key

/-- A value of the merged tree is a table just if the upper one's is. -/
theorem exists_overlaid_iff {old : Option Tree} {value : Tree} :
    (∃ table, overlaid old value = .mapping table) ↔ ∃ table, value = .mapping table := by
  cases table : isTable value with
  | false => rw [overlaid_leaf table]
  | true =>
    obtain ⟨entries, rfl⟩ := isTable_iff.mp table
    unfold overlaid
    split <;> simp

section
variable (lower : IsNested (.mapping base)) (upper : IsNested (.mapping entries))
  (known : ∀ key ∈ path, IsFound key)
include lower upper known

theorem atPath?_overlay :
    (Passes (.mapping entries) path →
      atPath? path (.mapping (overlay base entries)) = atPath? path (.mapping base)) ∧
    (¬Passes (.mapping entries) path → atPath? path (.mapping (overlay base entries)) =
      (atPath? path (.mapping entries)).map (overlaid (atPath? path (.mapping base)))) := by
  have olds : ∀ t ∈ some (Tree.mapping base), IsNested t := by simpa using lower
  have laid := atPath?_overlaid known upper olds
  rwa [overlaid] at laid

theorem keys_atPath? {table : List (Tree × Tree)}
    (found : atPath? path (.mapping (overlay base entries)) = some (.mapping table)) :
    table.map Prod.fst = keysAt path (.mapping base) ++
      (keysAt path (.mapping entries)).filter fun key =>
        (keysAt path (.mapping base)).all fun k => !same k key := by
  obtain ⟨through, stacked⟩ := atPath?_overlay lower upper known
  by_cases passes : Passes (.mapping entries) path
  · have nothing : keysAt path (.mapping entries) = [] :=
      keysAt_eq_nil fun _ => passes.nothing ▸ (Option.some_ne_none _).symm
    rw [keysAt_of_table ((through passes).symm.trans found), nothing, List.filter_nil,
      List.append_nil]
  · obtain ⟨value, above, laid⟩ := Option.map_eq_some_iff.mp ((stacked passes).symm.trans found)
    obtain ⟨inner, rfl⟩ := exists_overlaid_iff.mp ⟨table, laid⟩
    obtain ⟨-, apart⟩ := upper.atPath? above
    rw [keysAt_of_table above]
    by_cases both : ∃ old, atPath? path (.mapping base) = some (.mapping old)
    · obtain ⟨old, below⟩ := both
      rw [below, overlaid, Tree.mapping.injEq] at laid
      rw [keysAt_of_table below, ← laid]
      exact keys_overlay apart
    · rw [overlaid_of_leaf (not_exists.mp both), Tree.mapping.injEq] at laid
      rw [keysAt_eq_nil (not_exists.mp both), laid]
      exact (List.filter_eq_self.mpr fun _ _ => rfl).symm

end

theorem isMerged_overlay (lower : IsNested (.mapping base)) (upper : IsNested (.mapping entries)) :
    IsMerged (.mapping base) (.mapping entries) (.mapping (overlay base entries)) where
  given path value known leaf found := by
    have stops : ¬Passes (.mapping entries) path := fun passes =>
      Option.some_ne_none _ (found.symm.trans passes.nothing)
    rw [(atPath?_overlay lower upper known).2 stops, found, Option.map_some, overlaid_leaf leaf]
  kept path value known leaf found := by
    obtain ⟨through, stacked⟩ := atPath?_overlay lower upper known
    refine ⟨⟨fun ⟨nothing, there⟩ => ?_, fun passes => ?_⟩, fun stops => ?_⟩
    · by_contra stops
      rw [stacked stops, nothing] at there
      cases there
    · exact ⟨passes.nothing, (through passes).trans found⟩
    · have alone : overlaid (some value) = id := funext fun new =>
        overlaid_of_leaf (by simpa using ne_mapping_of_leaf leaf) new
      rw [stacked stops, found, alone, Option.map_id]
      rfl
  origin path value known leaf found := by
    obtain ⟨through, stacked⟩ := atPath?_overlay lower upper known
    by_cases passes : Passes (.mapping entries) path
    · exact .inr ⟨(through passes).symm.trans found, passes⟩
    · obtain ⟨new, above, laid⟩ := Option.map_eq_some_iff.mp ((stacked passes).symm.trans found)
      have bare : isTable new = false := by
        by_contra table
        obtain ⟨inner, merged⟩ := exists_overlaid_iff.mpr (isTable_iff.mp (by simpa using table))
        exact ne_mapping_of_leaf leaf inner (laid.symm.trans merged)
      rw [overlaid_leaf bare] at laid
      exact .inl (laid ▸ above)
  tables path known := by
    obtain ⟨through, stacked⟩ := atPath?_overlay lower upper known
    by_cases passes : Passes (.mapping entries) path
    · simp [through passes, passes.nothing, passes]
    · rw [stacked passes]
      cases atPath? path (.mapping entries) with
      | none => simp [passes]
      | some new =>
        simpa [passes] using exists_overlaid_iff
  keys path table known found := keys_atPath? lower upper known found

/-- Two nested tables can always be merged, and what is where in the merged one is what the two say
of its path. Merging the same table once more changes nothing. -/
theorem merge_leaves (lower : IsNested (.mapping base)) (upper : IsNested (.mapping entries)) :
    ∃ merged, merge (.mapping base) (.mapping entries) = .ok (.mapping merged) ∧
      IsMerged (.mapping base) (.mapping entries) (.mapping merged) ∧
      merge (.mapping merged) (.mapping entries) = .ok (.mapping merged) := by
  refine ⟨overlay base entries, rfl, isMerged_overlay lower upper, ?_⟩
  have olds : ∀ t ∈ some (Tree.mapping base), IsNested t := by simpa using lower
  have again := overlaid_again _ upper _ olds
  rw [overlaid, overlaid] at again
  exact congrArg Except.ok again

/-- A table under a number, a value and a table side by side. -/
def lowerTables : List (Tree × Tree) := [
  (.int 1, .mapping [Tree.field "pane" (.text "left"), Tree.field "size" (.int 80)]),
  tableOf "theme" [tableOf "colour" [Tree.field "bar" (.text "blue")], Tree.field "width" .null],
  Tree.field "shell" (.text "nu")]

/-- The number is spelled as a flag, a value comes where a table was and a table where a value was,
and one name is new. -/
def upperTables : List (Tree × Tree) := [
  tableOf "extra" [],
  (.flag true, .mapping [Tree.field "size" (.int 40), Tree.field "zoom" (.flag false)]),
  tableOf "theme" [Tree.field "colour" (.list []), tableOf "width" [Tree.field "bar" (.int 3)]]]

theorem merge_leaves_crossed :
    IsNested (.mapping lowerTables) ∧ IsNested (.mapping upperTables) ∧
    ∃ merged, merge (.mapping lowerTables) (.mapping upperTables) = .ok (.mapping merged) ∧
      IsMerged (.mapping lowerTables) (.mapping upperTables) (.mapping merged) ∧
      merge (.mapping merged) (.mapping upperTables) = .ok (.mapping merged) := by
  have lower : IsNested (.mapping lowerTables) := by
    simp [lowerTables, tableOf, Tree.field, IsNested, HaveNested, Tree.same_text,
      Tree.same_of_text, Tree.text?, Tree.isFound_text, Tree.isFound_int]
  have upper : IsNested (.mapping upperTables) := by
    simp [upperTables, tableOf, Tree.field, IsNested, HaveNested, Tree.same_text,
      Tree.same_of_text, Tree.text?, Tree.isFound_text, Tree.isFound_flag]
  exact ⟨lower, upper, merge_leaves lower upper⟩

end SessionPlan.Settings
