import SessionPlan.Proofs.Yaml.Filled

/-! Trees that are read back as they are. All that can be lost is a next line character (U+0085) in
single quotes: the writer takes it for one of several breaks and keeps it, and the reader takes it
for the end of a line like any other. -/
namespace SessionPlan.Yaml
open SessionPlan.Tree

/-! ### Texts -/

theorem mem_foldBreak {first : Char} {breaks : List Char} {c : Char}
    (member : c ∈ foldBreak first breaks) : c ∈ first :: breaks ∨ c = ' ' := by
  unfold foldBreak at member
  split at member
  · exact .inl member
  · split at member
    · exact .inr (List.mem_singleton.mp member)
    · exact .inl (List.mem_cons_of_mem _ member)

theorem seenBreak_ne (c : Char) : Cursor.seenBreak c ≠ '\u0085' := by
  unfold Cursor.seenBreak
  split
  · rename_i separator
    rintro rfl
    revert separator
    decide
  · decide

theorem not_mem_rejoined (run : List Char) : '\u0085' ∉ rejoined run := by
  unfold rejoined
  split
  · simp
  · rename_i first breaks seen
    intro member
    rcases mem_foldBreak member with kept | space
    · rw [← seen] at kept
      obtain ⟨c, -, same⟩ := List.mem_map.mp kept
      exact seenBreak_ne c same
    · exact absurd space (by decide)

/-- Breaks of the other kinds are kept, each one for itself. -/
theorem rejoined_eq {run : List Char} (breaks : ∀ c ∈ run, isTextBreak c = true)
    (clear : '\u0085' ∉ run) : rejoined run = run := by
  have seen (c : Char) (member : c ∈ run) : Cursor.seenBreak c = c := by
    have kind := breaks c member
    simp only [isTextBreak, Bool.or_eq_true, beq_iff_eq] at kind
    rcases kind with ((rfl | rfl) | rfl) | rfl
    · decide
    · exact absurd member clear
    · decide
    · decide
  have whole : run.map Cursor.seenBreak = run := by
    rw [List.map_congr_left seen, List.map_id']
  cases run with
  | nil => rfl
  | cons c run =>
    have first : Cursor.seenBreak '\n' = '\n' := by decide
    rw [rejoined, List.map_append, whole]
    by_cases feed : c = '\n'
    · simp [feed, first, foldBreak]
    · simp [feed, foldBreak]

/-- What single quotes make of a text. -/
theorem singleReading_eq_iff (t : List Char) : singleReading (runs t) = t ↔ '\u0085' ∉ t := by
  constructor
  · intro same member
    rw [← same] at member
    obtain ⟨r, known, inside⟩ := List.mem_flatMap.mp member
    split at inside
    · exact not_mem_rejoined r.2 inside
    · rename_i other
      refine other ?_
      rw [← (isRun_of_mem_runs r known).2 _ inside]
      decide
  · intro clear
    have each : ∀ r ∈ runs t, (if r.1 = .breaks then rejoined r.2 else r.2) = r.2 := by
      intro r known
      split
      · rename_i kind
        refine rejoined_eq (fun c member => runKind_breaks.mp ?_) fun member => clear ?_
        · rw [(isRun_of_mem_runs r known).2 c member, kind]
        · rw [← flatten_runs t]
          exact List.mem_flatMap.mpr ⟨r, known, member⟩
      · rfl
    rw [singleReading, List.flatMap_congr each, flatten_runs]

theorem styleOf_double {t : String} (style : styleOf t false = .double) :
    allowsSingleQuotes t.toList = false := by
  rw [styleOf] at style
  split at style
  · cases style
  · split at style
    · cases style
    · rename_i unquotable
      simpa using unquotable

theorem isTextBreak_of_allowsPlain {s : List Char} (allowed : allowsPlain s = true) :
    ∀ c ∈ s, isTextBreak c = false := by
  simp only [allowsPlain, Bool.not_eq_true', Bool.or_eq_false_iff] at allowed
  exact fun c member => Bool.eq_false_iff.mpr (List.any_eq_false.mp allowed.1.1.2 c member)

/-- A text is read back as it is, unless it stands in single quotes with such a character. -/
theorem reread_eq_iff (t : String) :
    reread t = t ↔ ('\u0085' ∈ t.toList → allowsSingleQuotes t.toList = false) := by
  have quoted : styleOf t false = .single → (reread t = t ↔ '\u0085' ∉ t.toList) := by
    intro style
    rw [reread, style, reading, ← String.toList_inj, String.toList_ofList]
    exact singleReading_eq_iff _
  cases style : styleOf t false with
  | plain =>
    have same : reread t = t := by rw [reread, style, reading, String.ofList_toList]
    refine iff_of_true same fun member => ?_
    have unbroken := isTextBreak_of_allowsPlain (styleOf_plain style).2.2 _ member
    exact absurd unbroken (by decide)
  | single =>
    rw [quoted style, styleOf_single style]
    simp
  | double =>
    have same : reread t = t := by rw [reread, style, reading, String.ofList_toList]
    exact iff_of_true same fun _ => styleOf_double style

/-! ### Trees -/

mutual

/-- The texts in a tree, but for the keys of mappings. -/
def valueTexts : Tree → List String
  | .text t => [t]
  | .list items => itemTexts items
  | .mapping entries => entryTexts entries
  | _ => []

def itemTexts : List Tree → List String
  | [] => []
  | item :: rest => valueTexts item ++ itemTexts rest

def entryTexts : List (Tree × Tree) → List String
  | [] => []
  | (_, value) :: rest => valueTexts value ++ entryTexts rest

end

mutual

theorem rereadTree_eq_iff : ∀ t : Tree, rereadTree t = t ↔ ∀ s ∈ valueTexts t, reread s = s
  | .text s => by simp [rereadTree, valueTexts]
  | .list items => by
    rw [rereadTree, valueTexts, Tree.list.injEq]
    exact rereadItems_eq_iff items
  | .mapping entries => by
    rw [rereadTree, valueTexts, Tree.mapping.injEq]
    exact rereadEntries_eq_iff entries
  | .null | .flag _ | .int _ | .real _ | .nan _ | .tuple _ | .set _ | .bytes _ | .date _ | .moment _
  | .clock _ | .cycle => by simp [rereadTree, valueTexts]

theorem rereadItems_eq_iff : ∀ items : List Tree,
    rereadItems items = items ↔ ∀ s ∈ itemTexts items, reread s = s
  | [] => by simp [rereadItems, itemTexts]
  | item :: rest => by
    rw [rereadItems, itemTexts, List.forall_mem_append, List.cons.injEq, rereadTree_eq_iff item,
      rereadItems_eq_iff rest]

theorem rereadEntries_eq_iff : ∀ entries : List (Tree × Tree),
    rereadEntries entries = entries ↔ ∀ s ∈ entryTexts entries, reread s = s
  | [] => by simp [rereadEntries, entryTexts]
  | (key, value) :: rest => by
    rw [rereadEntries, entryTexts, List.forall_mem_append, List.cons.injEq, Prod.mk.injEq,
      rereadTree_eq_iff value, rereadEntries_eq_iff rest]
    simp

end

end SessionPlan.Yaml
