import SessionPlan.Proofs.Yaml.Kinds

/-! Trees out of the nodes that hold them. Every node is read once, when it is met first, and a
collection is filled later; whatever the order, in the end each node that was met has been read as
what it is. -/
namespace SessionPlan.Yaml
open SessionPlan.Tree

/-! ### Mappings without merge keys -/

theorem merged_eq {g : Graph} {n : Nat}
    (keys : ∀ e ∈ g.entries n, (g.node e.1).tag = standard "str") : g.merged n = .ok g := by
  have tagged (name : String) (other : (standard "str" == standard name) = false) (e : Nat × Nat)
      (member : e ∈ g.entries n) : g.hasTag name e.1 = false := by
    rw [Graph.hasTag, keys e member, other]
  have unmerged : g.firstMerge? n = none := by
    have none : (g.entries n).findIdx? (fun entry => g.hasTag "merge" entry.1) = none :=
      List.findIdx?_eq_none_iff.mpr (tagged "merge" (by decide))
    rw [Graph.firstMerge?, none]
    rfl
  have settled : g.settleKeys n = g := by
    have each := tagged "value" (by decide)
    unfold Graph.settleKeys
    generalize g.entries n = entries at each
    induction entries with
    | nil => rfl
    | cons e entries ih =>
      obtain ⟨first, others⟩ := List.forall_mem_cons.mp each
      rw [List.foldl_cons, first]
      exact ih others
  rw [Graph.merged, Graph.merge, unmerged]
  dsimp only
  rw [settled]

namespace Reader
variable {g : Graph} {r r' : Reader}

/-! ### States -/

/-- What a node has been read as in the end. -/
inductive Settled (g : Graph) (r : Reader) (n : Nat) : Reading → Prop
  | leaf {value : Tree} (reads : ReadsAs g n value) : Settled g r n (.leaf value)
  | list {items : List Nat} (content : g.content n = .sequence items)
    (known : ∀ m ∈ items, (r.reading? m).isSome) : Settled g r n (.list items)
  | mapping {entries : List (Nat × Nat)} (content : g.content n = .mapping entries)
    (known : ∀ e ∈ entries, (r.reading? e.2).isSome) :
    Settled g r n (.mapping (entries.map fun e => (g.keyOf e.1, e.2)))

/-- What is still to be done: nodes that have not been met, and collections to be filled. -/
def load (r : Reader) : Nat := r.readings.countP (·.isNone) + r.waiting.length

/-- What has been met stays so, and no work is added. -/
structure Later (r r' : Reader) : Prop where
  met : ∀ m, (r.reading? m).isSome → (r'.reading? m).isSome
  load : r'.load ≤ r.load

theorem Later.refl (r : Reader) : Later r r := ⟨fun _ => id, Nat.le_refl _⟩

theorem Later.trans {r'' : Reader} (first : Later r r') (second : Later r' r'') : Later r r'' :=
  ⟨fun m known => second.met m (first.met m known), Nat.le_trans second.load first.load⟩

theorem Settled.later {n : Nat} {reading : Reading} (settled : Settled g r n reading)
    (later : Later r r') : Settled g r' n reading := by
  cases settled with
  | leaf reads => exact .leaf reads
  | list content known => exact .list content fun m member => later.met m (known m member)
  | mapping content known => exact .mapping content fun e member => later.met _ (known e member)

theorem Settled.of_readsAs {n : Nat} {reading : Reading} (settled : Settled g r n reading) {value : Tree}
    (reads : ReadsAs g n value) : reading = .leaf value := by
  obtain ⟨text, scalar⟩ := reads.scalar
  cases settled with
  | leaf reads' =>
    have same := reads'.reads.symm.trans reads.reads
    cases same
    rfl
  | list content known =>
    rw [content] at scalar
    cases scalar
  | mapping content known =>
    rw [content] at scalar
    cases scalar

theorem Settled.of_sequence {n : Nat} {reading : Reading} (settled : Settled g r n reading)
    {items : List Nat} (content : g.content n = .sequence items) :
    reading = .list items ∧ ∀ m ∈ items, (r.reading? m).isSome := by
  cases settled with
  | leaf reads =>
    obtain ⟨text, scalar⟩ := reads.scalar
    rw [content] at scalar
    cases scalar
  | list content' known =>
    rw [content] at content'
    cases content'
    exact ⟨rfl, known⟩
  | mapping content' known =>
    rw [content] at content'
    cases content'

theorem Settled.of_mapping {n : Nat} {reading : Reading} (settled : Settled g r n reading)
    {entries : List (Nat × Nat)} (content : g.content n = .mapping entries) :
    reading = .mapping (entries.map fun e => (g.keyOf e.1, e.2)) ∧
      ∀ e ∈ entries, (r.reading? e.2).isSome := by
  cases settled with
  | leaf reads =>
    obtain ⟨text, scalar⟩ := reads.scalar
    rw [content] at scalar
    cases scalar
  | list content' known =>
    rw [content] at content'
    cases content'
  | mapping content' known =>
    rw [content] at content'
    cases content'
    exact ⟨rfl, known⟩

/-- A state in which the nodes of a graph are being read. Collections that are `pending` or waiting
have been met but not filled; all others that have been met are settled. -/
structure Filling (g : Graph) (pending : List Nat) (r : Reader) : Prop where
  graph : r.graph = g
  size : r.readings.size = g.size
  known : ∀ n, (r.reading? n).isSome → g.Known n
  settled : ∀ n reading, r.reading? n = some reading → n ∉ pending ++ r.waiting →
    Settled g r n reading
  waits : ∀ n ∈ pending ++ r.waiting, (r.reading? n).isSome ∧
    r.reading? n = collections.lookup (g.node n).tag
  once : (pending ++ r.waiting).Nodup

theorem countP_record {n : Nat} (reading : Reading) (inside : n < r.readings.size)
    (new : r.reading? n = none) :
    (r.record n reading).readings.countP (·.isNone) + 1 = r.readings.countP (·.isNone) := by
  have empty : r.readings[n] = none := by
    rw [← new, reading?, Array.getD_eq_getD_getElem?, Array.getElem?_eq_getElem inside]
    rfl
  have some_left : 0 < r.readings.countP (·.isNone) :=
    Array.countP_pos_iff.mpr ⟨_, Array.getElem_mem inside, by rw [empty]; rfl⟩
  rw [record, Array.setIfInBounds, dif_pos inside]
  dsimp only
  rw [Array.countP_set, empty]
  simp only [Option.isNone_none, if_true, Option.isNone_some, Bool.false_eq_true, if_false]
  omega

theorem later_record (r : Reader) (n : Nat) (reading : Reading) : Later r (r.record n reading) := by
  refine ⟨fun m known => ?_, Nat.add_le_add_right ?_ _⟩
  · rw [reading?_record]
    split
    · rfl
    · exact known
  · rw [record, Array.setIfInBounds]
    split
    · rename_i inside
      dsimp only
      rw [Array.countP_set]
      simp
    · exact Nat.le_refl _

/-! ### Single nodes -/

theorem Filling.apart {pending : List Nat} (h : Filling g pending r) {n : Nat}
    (new : r.reading? n = none) : n ∉ pending ++ r.waiting := fun member => by
  have met := (h.waits n member).1
  rw [new] at met
  cases met

/-- A scalar is settled at once. -/
theorem Filling.record_leaf {pending : List Nat} (h : Filling g pending r) {n : Nat} {value : Tree}
    (known : g.Known n) (new : r.reading? n = none) (reads : ReadsAs g n value) :
    Filling g pending (r.record n (.leaf value)) := by
  have inside : n < r.readings.size := h.size ▸ reads.inside
  have later := later_record r n (.leaf value)
  have other {m : Nat} (apart : m ≠ n) : (r.record n (.leaf value)).reading? m = r.reading? m := by
    rw [reading?_record, if_neg fun same => apart same.1.symm]
  refine ⟨h.graph, (Array.size_setIfInBounds ..).trans h.size, fun m met => ?_,
    fun m reading found apart => ?_, fun m member => ?_, h.once⟩
  · by_cases same : m = n
    · exact same ▸ known
    · exact h.known m (other same ▸ met)
  · by_cases same : m = n
    · subst same
      rw [reading?_record, if_pos ⟨rfl, inside⟩] at found
      cases found
      exact .leaf reads
    · exact (h.settled m reading (other same ▸ found) apart).later later
  · have apart : m ≠ n := fun same => h.apart new (same ▸ member)
    rw [other apart]
    exact h.waits m member

/-- A collection waits to be filled. -/
theorem Filling.record_collection {pending : List Nat} (h : Filling g pending r) {n : Nat}
    {empty : Reading} (known : g.Known n) (inside : n < g.size) (new : r.reading? n = none)
    (tag : collections.lookup (g.node n).tag = some empty) :
    Filling g pending { r.record n empty with waiting := r.waiting ++ [n] } ∧
      Later r { r.record n empty with waiting := r.waiting ++ [n] } := by
  have inside : n < r.readings.size := h.size ▸ inside
  have apart := h.apart new
  have recorded (m : Nat) : ({ r.record n empty with waiting := r.waiting ++ [n] } : Reader).reading? m =
      if n = m ∧ n < r.readings.size then some empty else r.reading? m := reading?_record r n m empty
  have other {m : Nat} (apart : m ≠ n) :
      ({ r.record n empty with waiting := r.waiting ++ [n] } : Reader).reading? m = r.reading? m := by
    rw [recorded, if_neg fun same => apart same.1.symm]
  have later : Later r { r.record n empty with waiting := r.waiting ++ [n] } := by
    refine ⟨(later_record r n empty).met, ?_⟩
    have fewer := countP_record empty inside new
    show (r.record n empty).readings.countP (·.isNone) + (r.waiting ++ [n]).length ≤ _
    rw [load, List.length_append, List.length_singleton]
    omega
  refine ⟨⟨h.graph, (Array.size_setIfInBounds ..).trans h.size, fun m met => ?_,
    fun m reading found outside => ?_, fun m member => ?_, ?_⟩, later⟩
  · by_cases same : m = n
    · exact same ▸ known
    · exact h.known m (other same ▸ met)
  · simp only [List.mem_append, List.mem_singleton, not_or] at outside
    rw [other outside.2.2] at found
    exact (h.settled m reading found (by simp [outside])).later later
  · by_cases same : m = n
    · subst same
      rw [recorded, if_pos ⟨rfl, inside⟩, tag]
      exact ⟨rfl, rfl⟩
    · rw [other same]
      refine h.waits m ?_
      simp only [List.mem_append, List.mem_singleton, same, or_false] at member ⊢
      exact member
  · show (pending ++ (r.waiting ++ [n])).Nodup
    rw [← List.append_assoc]
    refine List.nodup_append.mpr ⟨h.once, by simp, fun m member k single same => ?_⟩
    rw [List.mem_singleton.mp single] at same
    exact apart (same ▸ member)

/-- A node that is met has been read afterwards, and a collection will be filled. -/
theorem Filling.read {pending : List Nat} (h : Filling g pending r) {n : Nat} (known : g.Known n) :
    ∃ r', r.read n = .ok r' ∧ Filling g pending r' ∧ Later r r' ∧ (r'.reading? n).isSome := by
  cases found : r.reading? n with
  | some reading =>
    refine ⟨r, ?_, h, .refl r, by rw [found]; rfl⟩
    rw [Reader.read, found]
  | none =>
    have collected (empty : Reading) (inside : n < g.size)
        (tag : collections.lookup (g.node n).tag = some empty) :
        ∃ r', r.read n = .ok r' ∧ Filling g pending r' ∧ Later r r' ∧ (r'.reading? n).isSome := by
      obtain ⟨filling, later⟩ := h.record_collection known inside found tag
      refine ⟨_, ?_, filling, later, ?_⟩
      · rw [Reader.read, found, h.graph, tag]
      · exact (filling.waits n (by simp)).1
    cases known.kind with
    | leaf value reads =>
      have inside : n < r.readings.size := h.size ▸ reads.inside
      refine ⟨_, ?_, h.record_leaf known found reads, later_record _ _ _, ?_⟩
      · rw [Reader.read, found, h.graph, reads.single]
        dsimp only
        rw [reads.reads]
        rfl
      · rw [reading?_record, if_pos ⟨rfl, inside⟩]
        rfl
    | list items inside tag content parts =>
      exact collected (.list []) inside (by rw [tag]; rfl)
    | mapping entries inside tag content keys apart values =>
      exact collected (.mapping []) inside (by rw [tag]; rfl)

theorem Filling.readAll {pending : List Nat} (h : Filling g pending r) {ns : List Nat}
    (known : ∀ m ∈ ns, g.Known m) :
    ∃ r', r.readAll ns = .ok r' ∧ Filling g pending r' ∧ Later r r' ∧
      ∀ m ∈ ns, (r'.reading? m).isSome := by
  induction ns generalizing r with
  | nil => exact ⟨r, rfl, h, .refl r, by simp⟩
  | cons n ns ih =>
    obtain ⟨first, others⟩ := List.forall_mem_cons.mp known
    obtain ⟨r₁, read, h₁, later₁, met⟩ := h.read first
    obtain ⟨r₂, all, h₂, later₂, met'⟩ := ih h₁ others
    refine ⟨r₂, ?_, h₂, later₁.trans later₂, List.forall_mem_cons.mpr ⟨later₂.met n met, met'⟩⟩
    rw [Reader.readAll, List.foldlM_cons, read, ok_bind]
    exact all

theorem Filling.readKey {pending : List Nat} (h : Filling g pending r) {key : Tree} {n : Nat}
    (name : HoldsName g key n) :
    ∃ r', r.readKey n = .ok (key, r') ∧ Filling g pending r' ∧ Later r r' := by
  obtain ⟨r', read, h', later, met⟩ := h.read (.inl ⟨key, name⟩)
  obtain ⟨reading, found⟩ := Option.isSome_iff_exists.mp met
  have reads := name.readsAs
  have outside : n ∉ pending ++ r'.waiting := fun member => by
    have waits := h'.waits n member
    rw [reads.single] at waits
    rw [waits.2] at met
    cases met
  refine ⟨r', ?_, h', later⟩
  rw [Reader.readKey, read, ok_bind, found, (h'.settled n reading found outside).of_readsAs reads]
  rfl

theorem Filling.readEntries {pending : List Nat} (h : Filling g pending r) {es : List (Nat × Nat)}
    (keys : ∀ e ∈ es, HoldsName g (g.keyOf e.1) e.1) (values : ∀ e ∈ es, g.Known e.2)
    (apart : es.Pairwise fun a b => same (g.keyOf a.1) (g.keyOf b.1) = false)
    (found : List (Tree × Nat)) (fresh : ∀ f ∈ found, ∀ e ∈ es, same f.1 (g.keyOf e.1) = false) :
    ∃ r', r.readEntries found es = .ok (found ++ es.map fun e => (g.keyOf e.1, e.2), r') ∧
      Filling g pending r' ∧ Later r r' ∧ ∀ e ∈ es, (r'.reading? e.2).isSome := by
  induction es generalizing r found with
  | nil => exact ⟨r, by rw [Reader.readEntries, List.map_nil, List.append_nil], h, .refl r, by simp⟩
  | cons e es ih =>
    obtain ⟨key, value⟩ := e
    obtain ⟨name, names⟩ := List.forall_mem_cons.mp keys
    obtain ⟨known, knowns⟩ := List.forall_mem_cons.mp values
    obtain ⟨first, aparts⟩ := List.pairwise_cons.mp apart
    obtain ⟨r₁, read, h₁, later₁⟩ := h.readKey name
    obtain ⟨r₂, read', h₂, later₂, met⟩ := h₁.read known
    have inserted : Tree.insert (g.keyOf key) value found = found ++ [(g.keyOf key, value)] :=
      insert_of_fresh fun f member => fresh f member _ List.mem_cons_self
    obtain ⟨r₃, all, h₃, later₃, mets⟩ := ih h₂ names knowns aparts
      (found ++ [(g.keyOf key, value)]) fun f member e later => by
        rcases List.mem_append.mp member with old | new
        · exact fresh f old e (List.mem_cons_of_mem _ later)
        · rw [List.mem_singleton.mp new]
          exact first e later
    refine ⟨r₃, ?_, h₃, (later₁.trans later₂).trans later₃,
      List.forall_mem_cons.mpr ⟨later₃.met value met, mets⟩⟩
    rw [Reader.readEntries, read, ok_bind]
    dsimp only
    rw [read', ok_bind, inserted, all, List.append_assoc]
    rfl

/-! ### Filling -/

/-- A collection that has been filled is settled. -/
theorem Filling.close {n : Nat} (h : Filling g [n] r) (inside : n < g.size) {reading : Reading}
    (settled : Settled g r n reading) : Filling g [] (r.record n reading) := by
  have inside : n < r.readings.size := h.size ▸ inside
  have later := later_record r n reading
  have other {m : Nat} (apart : m ≠ n) : (r.record n reading).reading? m = r.reading? m := by
    rw [reading?_record, if_neg fun same => apart same.1.symm]
  obtain ⟨unmet, once⟩ := List.nodup_cons.mp h.once
  refine ⟨h.graph, (Array.size_setIfInBounds ..).trans h.size, fun m met => ?_,
    fun m reading' found apart => ?_, fun m member => ?_, once⟩
  · by_cases same : m = n
    · exact same ▸ h.known n (h.waits n (List.mem_cons_self)).1
    · exact h.known m (other same ▸ met)
  · by_cases same : m = n
    · subst same
      rw [reading?_record, if_pos ⟨rfl, inside⟩] at found
      cases found
      exact settled.later later
    · refine (h.settled m reading' (other same ▸ found) ?_).later later
      exact List.not_mem_cons_of_ne_of_not_mem same apart
  · have apart : m ≠ n := fun same => unmet (same ▸ member)
    rw [other apart]
    exact h.waits m (List.mem_cons_of_mem _ member)

theorem Filling.fill {n : Nat} (h : Filling g [n] r) :
    ∃ r', r.fill n = .ok r' ∧ Filling g [] r' ∧ Later r r' := by
  obtain ⟨met, empty⟩ := h.waits n List.mem_cons_self
  have known := h.known n met
  cases known.kind with
  | leaf value reads =>
    rw [empty, reads.single] at met
    cases met
  | list items inside tag content parts =>
    obtain ⟨r', all, h', later, mets⟩ := h.readAll parts
    refine ⟨_, ?_, h'.close inside (.list content mets), later.trans (later_record _ _ _)⟩
    have reading : r.reading? n = some (.list []) := by
      rw [empty, tag]
      rfl
    rw [Reader.fill, reading, h.graph, content]
    dsimp only
    rw [all]
    rfl
  | mapping entries inside tag content keys apart values =>
    obtain ⟨r', all, h', later, mets⟩ := h.readEntries keys values apart [] (by simp)
    refine ⟨_, ?_, h'.close inside (.mapping content mets), later.trans (later_record _ _ _)⟩
    have reading : r.reading? n = some (.mapping []) := by
      rw [empty, tag]
      rfl
    have entered : g.entries n = entries := by rw [Graph.entries, content]
    have merged : g.merged n = .ok g := merged_eq fun e member => by
      obtain ⟨name, line, -, has⟩ := keys e (entered ▸ member)
      rw [has.2]
    have stays : ({ r with graph := g } : Reader) = r := by rw [← h.graph]
    have mapping : r.readMapping n = .ok (entries.map fun e => (g.keyOf e.1, e.2), r') := by
      rw [Reader.readMapping, h.graph, content]
      dsimp only
      rw [merged, ok_bind, entered, stays, all]
      rfl
    rw [Reader.fill, reading]
    dsimp only
    rw [mapping]
    rfl

/-- What waits is filled, until nothing does. -/
theorem Filling.run (h : Filling g [] r) {fuel : Nat} (enough : r.load ≤ fuel) :
    ∃ r', r.run fuel = .ok r' ∧ Filling g [] r' ∧ r'.waiting = [] ∧
      ∀ m, (r.reading? m).isSome → (r'.reading? m).isSome := by
  induction fuel generalizing r with
  | zero =>
    have nothing : r.waiting.length = 0 := by
      rw [load] at enough
      omega
    exact ⟨r, rfl, h, List.length_eq_zero_iff.mp nothing, fun _ => id⟩
  | succ fuel ih =>
    cases waiting : r.waiting with
    | nil => exact ⟨r, by rw [Reader.run, waiting], h, waiting, fun _ => id⟩
    | cons n rest =>
      have begun : Filling g [n] { r with waiting := rest } := by
        have same : [] ++ r.waiting = [n] ++ rest := waiting
        have later : Later r { r with waiting := rest } :=
          ⟨fun _ => id, Nat.add_le_add_left (by rw [waiting]; exact Nat.le_succ _) _⟩
        exact ⟨h.graph, h.size, h.known, fun m reading found apart =>
          (h.settled m reading found (same ▸ apart)).later later,
          fun m member => h.waits m (same ▸ member), same ▸ h.once⟩
      obtain ⟨r₁, filled, h₁, later⟩ := begun.fill
      obtain ⟨r₂, ran, h₂, done, met⟩ := ih h₁ (by
        have lighter := later.load
        rw [load, waiting] at enough
        rw [load, load] at lighter
        rw [load]
        simp at enough lighter ⊢
        omega)
      refine ⟨r₂, ?_, h₂, done, fun m known => met m (later.met m known)⟩
      rw [Reader.run, waiting]
      dsimp only
      rw [filled, ok_bind, ran]

/-! ### Trees -/

theorem Filling.start (g : Graph) : Filling g [] (Reader.start g) := by
  have unmet (n : Nat) : (Reader.start g).reading? n = none := by
    simp only [Reader.start, reading?, Array.getD_eq_getD_getElem?, Array.getElem?_replicate]
    split <;> rfl
  refine ⟨rfl, Array.size_replicate, fun n met => ?_, fun n reading found => ?_, by simp [Reader.start],
    by simp [Reader.start]⟩
  · rw [unmet] at met
    cases met
  · rw [unmet] at found
    cases found

theorem load_start (g : Graph) : (Reader.start g).load ≤ g.size := by
  have bound : (Reader.start g).readings.countP (·.isNone) ≤ _ := Array.countP_le_size
  have size : (Reader.start g).readings.size = g.size := Array.size_replicate
  rw [load, show (Reader.start g).waiting = [] from rfl]
  simp only [List.length_nil]
  omega

/-- No node is below itself, since numbers grow. -/
theorem contains_of_above {n : Nat} {path : List Nat} (above : ∀ p ∈ path, p < n) :
    path.contains n = false := by
  rw [List.contains_eq_mem, decide_eq_false_iff_not]
  exact fun member => Nat.lt_irrefl n (above n member)

/-- All that was met is settled. -/
def AllSettled (g : Graph) (r : Reader) : Prop :=
  ∀ n reading, r.reading? n = some reading → Settled g r n reading

theorem treeOf_leaf (settled : AllSettled g r) {n : Nat} {value : Tree} (reads : ReadsAs g n value)
    (met : (r.reading? n).isSome) {fuel : Nat} {path : List Nat} (above : ∀ p ∈ path, p < n)
    (enough : g.size ≤ fuel + n) : r.treeOf fuel path n = value := by
  obtain ⟨reading, found⟩ := Option.isSome_iff_exists.mp met
  have inside := reads.inside
  obtain ⟨fuel, rfl⟩ := Nat.exists_eq_add_one_of_ne_zero (n := fuel) (by omega)
  rw [treeOf, contains_of_above above, if_neg Bool.false_ne_true, found,
    (settled n reading found).of_readsAs reads]

mutual

/-- Once all that was met is settled, each node that was met gives its tree. -/
theorem treeOf_holds (settled : AllSettled g r) : ∀ {t : Tree} {room n fuel : Nat}
    {path : List Nat}, t.IsBlock room → (∀ i ∈ t.integers, Text.isWritable i = true) →
      Holds g t n → (r.reading? n).isSome → (∀ p ∈ path, p < n) → g.size ≤ fuel + n →
      r.treeOf fuel path n = rereadTree t
  | .null, _, _, _, _, _, _, holds, met, above, enough =>
    treeOf_leaf settled (HoldsLeaf.readsAs_null holds) met above enough
  | .flag _, _, _, _, _, _, _, holds, met, above, enough =>
    treeOf_leaf settled (HoldsLeaf.readsAs_flag holds) met above enough
  | .int i, _, _, _, _, _, writable, holds, met, above, enough =>
    treeOf_leaf settled (HoldsLeaf.readsAs_int holds (writable i (List.mem_singleton_self i)))
      met above enough
  | .text _, _, _, _, _, _, _, holds, met, above, enough =>
    treeOf_leaf settled (HoldsLeaf.readsAs_text holds) met above enough
  | .list items, room, n, fuel, path, block, writable, holds, met, above, enough => by
    obtain ⟨ns, line, has, parts⟩ := holds
    obtain ⟨reading, found⟩ := Option.isSome_iff_exists.mp met
    have content : g.content n = .sequence ns := by rw [Graph.content, has.2]
    obtain ⟨rfl, mets⟩ := (settled n reading found).of_sequence content
    have inside := has.1
    obtain ⟨fuel, rfl⟩ := Nat.exists_eq_add_one_of_ne_zero (n := fuel) (by omega)
    have below : ∀ p ∈ n :: path, p ≤ n :=
      List.forall_mem_cons.mpr ⟨Nat.le_refl n, fun p member => Nat.le_of_lt (above p member)⟩
    rw [treeOf, contains_of_above above, if_neg Bool.false_ne_true, found, rereadTree]
    exact congrArg Tree.list (treeOf_items settled block.2.2 writable parts mets below (by omega))
  | .mapping entries, room, n, fuel, path, block, writable, holds, met, above, enough => by
    obtain ⟨ns, line, has, parts⟩ := holds
    obtain ⟨reading, found⟩ := Option.isSome_iff_exists.mp met
    have content : g.content n = .mapping ns := by rw [Graph.content, has.2]
    obtain ⟨rfl, mets⟩ := (settled n reading found).of_mapping content
    have inside := has.1
    obtain ⟨fuel, rfl⟩ := Nat.exists_eq_add_one_of_ne_zero (n := fuel) (by omega)
    have below : ∀ p ∈ n :: path, p ≤ n :=
      List.forall_mem_cons.mpr ⟨Nat.le_refl n, fun p member => Nat.le_of_lt (above p member)⟩
    have entries := treeOf_entries settled block.2.2.1 writable parts mets below
      (show _ ≤ fuel + _ by omega)
    rw [treeOf, contains_of_above above, if_neg Bool.false_ne_true, found, rereadTree, ← entries]
    dsimp only
    rw [List.map_map]
    rfl

theorem treeOf_items (settled : AllSettled g r) : ∀ {items : List Tree} {room above : Nat}
    {ns : List Nat} {fuel : Nat} {path : List Nat}, AreBlocks items room →
      (∀ i ∈ itemIntegers items, Text.isWritable i = true) → HoldsItems g items above ns →
      (∀ m ∈ ns, (r.reading? m).isSome) → (∀ p ∈ path, p ≤ above) → g.size ≤ fuel + (above + 1) →
      ns.map (r.treeOf fuel path) = rereadItems items
  | [], _, _, _, _, _, _, _, holds, _, _, _ => by
    rw [holds]
    rfl
  | item :: rest, room, above, ns, fuel, path, block, writable, holds, met, below, enough => by
    obtain ⟨n, more, rfl, further, first, later⟩ := holds
    rw [itemIntegers, List.forall_mem_append] at writable
    obtain ⟨met, mets⟩ := List.forall_mem_cons.mp met
    have outside (p : Nat) (member : p ∈ path) : p < n := Nat.lt_of_le_of_lt (below p member) further
    rw [List.map_cons, rereadItems, treeOf_items settled block.2 writable.2 later mets below enough,
      treeOf_holds settled block.1 writable.1 first met outside (by omega)]

theorem treeOf_entries (settled : AllSettled g r) : ∀ {entries : List (Tree × Tree)}
    {room above : Nat} {ns : List (Nat × Nat)} {fuel : Nat} {path : List Nat},
      HaveBlocks entries room → (∀ i ∈ entryIntegers entries, Text.isWritable i = true) →
      HoldsEntries g entries above ns →
      (∀ e ∈ ns, (r.reading? e.2).isSome) → (∀ p ∈ path, p ≤ above) → g.size ≤ fuel + (above + 1) →
      ns.map (fun e => (g.keyOf e.1, r.treeOf fuel path e.2)) = rereadEntries entries
  | [], _, _, _, _, _, _, _, holds, _, _, _ => by
    rw [holds]
    rfl
  | (key, value) :: rest, room, above, ns, fuel, path, block, writable, holds, met, below,
      enough => by
    obtain ⟨k, n, more, rfl, -, further, name, first, later⟩ := holds
    rw [entryIntegers, List.forall_mem_append, List.forall_mem_append] at writable
    obtain ⟨met, mets⟩ := List.forall_mem_cons.mp met
    have outside (p : Nat) (member : p ∈ path) : p < n := Nat.lt_of_le_of_lt (below p member) further
    rw [List.map_cons, rereadEntries,
      treeOf_entries settled block.2.2 writable.2 later mets below enough, name.keyOf,
      treeOf_holds settled block.2.1 writable.1.2 first met outside (by omega)]

end

end Reader

/-- A document that is a mapping in blocks is read back if it can be written, but for what single
quotes do to its texts. -/
theorem parse_documentText {entries : List (Tree × Tree)} {room : Nat}
    (block : (Tree.mapping entries).IsBlock room)
    (writable : (Tree.mapping entries).isWritable = true) (narrow : 2 * room + 2 < width) :
    parse (documentText (.mapping entries)) = .ok (rereadTree (.mapping entries)) := by
  have writable := Tree.isWritable_iff.mp writable
  obtain ⟨s, text, spells⟩ := documentText_spells block narrow
  obtain ⟨n, g, composed, holds⟩ := compose_document block.1 block.2.2.1 spells
  obtain ⟨r₁, read, h₁, later, met⟩ :=
    (Reader.Filling.start g).read (.inr ⟨_, room, block, writable, holds⟩)
  have enough : r₁.load ≤ g.size + 1 :=
    Nat.le_succ_of_le (Nat.le_trans later.load (Reader.load_start g))
  obtain ⟨r₂, ran, h₂, done, mets⟩ := h₁.run enough
  have settled : Reader.AllSettled g r₂ := fun m reading found =>
    h₂.settled m reading found (by simp [done])
  rw [parse, text, composed, ok_bind]
  dsimp only
  rw [read, ok_bind, ran, ok_bind,
    Reader.treeOf_holds settled block writable holds (mets n met) (by simp) (by omega)]
  rfl

end SessionPlan.Yaml
