import SessionPlan.Proofs.Failure
import SessionPlan.Proofs.Path.Home
import SessionPlan.Proofs.Text.Decimal
import SessionPlan.Document.Outline

/-! Values of single fields. For each kind of value: what a reader lets through, and that the
reader gives back what was written of such a value. -/
namespace SessionPlan.Document
open SessionPlan.Text

/-- A command as it can be typed: one line. -/
def IsLine (command : String) : Prop := '\r' ∉ command.toList ∧ '\n' ∉ command.toList

theorem isLine_commandLine (s : String) : IsLine (commandLine s) := by
  constructor
  all_goals
    rw [commandLine, String.toList_ofList]
    intro member
    obtain ⟨c, kept, eq⟩ := List.mem_map.mp member
    split at eq <;> simp_all

theorem commandLine_eq_self {s : String} (h : IsLine s) : commandLine s = s := by
  have kept : s.toList.filter (· != '\r') = s.toList :=
    List.filter_eq_self.mpr fun c member => by
      simp only [bne_iff_ne]; rintro rfl; exact h.1 member
  have same : s.toList.map (fun c => if c = '\n' then ' ' else c) = s.toList := by
    refine (List.map_congr_left fun c member => ?_).trans (List.map_id _)
    exact if_neg (by rintro rfl; exact h.2 member)
  rw [commandLine, kept, same, String.ofList_toList]

theorem commandItems_isLine {path : String} {position : Nat} {items : List Tree}
    {lines : List String} (h : commandItems path position items = .ok lines) :
    ∀ c ∈ lines, IsLine c := by
  induction items generalizing position lines with
  | nil => cases h; simp
  | cons item rest ih =>
    rw [commandItems] at h
    split at h
    · obtain ⟨text, -, h⟩ := bind_eq_ok.mp h
      obtain ⟨later, read, eq⟩ := bind_eq_ok.mp h
      cases eq
      intro c member
      rcases List.mem_cons.mp member with rfl | member
      · exact isLine_commandLine _
      · exact ih read c member
    · cases h

theorem commands_isLine {path : String} {value : Tree} {lines : List String}
    (h : commands path value = .ok lines) : ∀ c ∈ lines, IsLine c := by
  unfold commands at h
  split at h
  · cases h; simp
  · exact commandItems_isLine h
  · split at h
    · obtain ⟨text, -, eq⟩ := bind_eq_ok.mp h
      cases eq
      simpa using isLine_commandLine _
    · cases h

theorem commandItems_texts (path : String) (position : Nat) {lines : List String}
    (h : ∀ c ∈ lines, IsLine c) :
    commandItems path position (lines.map Tree.text) = .ok lines := by
  induction lines generalizing position with
  | nil => rfl
  | cons c rest ih =>
    have first := commandLine_eq_self (h c List.mem_cons_self)
    have later := ih (position + 1) fun d member => h d (List.mem_cons_of_mem _ member)
    simp only [List.map_cons, commandItems, isScalar, if_true, Tree.written_text, later, ok_bind,
      first]
    rfl

/-- Commands are written as nothing, as one text or as a list; all three are read back. -/
theorem commands_commandsTree? {lines : List String} (path : String) (h : ∀ c ∈ lines, IsLine c) :
    commands path ((commandsTree? lines).getD .null) = .ok lines := by
  match lines with
  | [] => rfl
  | [c] =>
    simp only [commandsTree?, Option.getD_some, commands, isScalar, if_true, Tree.written_text,
      ok_bind, commandLine_eq_self (h c (by simp))]
    rfl
  | c :: d :: rest => exact commandItems_texts path 0 h

theorem optionalText_text (path : String) (s : Option String) :
    optionalText path ((s.map Tree.text).getD .null) = .ok s := by
  cases s <;> rfl

theorem nonempty_ne_empty {s : Option String} : ∀ t ∈ nonempty s, t ≠ "" := by
  intro t member
  have kept := Option.mem_def.mp member
  simp only [nonempty, Option.filter_eq_some_iff, Bool.not_eq_true', String.isEmpty_eq_false_iff]
    at kept
  exact kept.2

theorem nonempty_eq_self {s : Option String} (h : ∀ t ∈ s, t ≠ "") : nonempty s = s := by
  cases s with
  | none => rfl
  | some t => simp [nonempty, h t rfl]

/-- A name that can stand in a target. -/
structure IsTargetName (name : String) : Prop where
  ne_empty : name ≠ ""
  dot : '.' ∉ name.toList
  colon : ':' ∉ name.toList

theorem holdsSeparator_eq_false {name : String} :
    holdsSeparator name = false ↔ '.' ∉ name.toList ∧ ':' ∉ name.toList := by
  simp only [holdsSeparator, targetSeparators, List.any_eq_false, List.contains_eq_mem]
  constructor
  · intro h
    exact ⟨fun member => h '.' member (by simp), fun member => h ':' member (by simp)⟩
  · rintro ⟨dot, colon⟩ c member found
    rcases (by simpa using found : c = '.' ∨ c = ':') with rfl | rfl
    · exact dot member
    · exact colon member

theorem targetName_isTargetName {entity : Entity} {path : String} {value : Tree}
    {name : Option String} (h : targetName entity path value = .ok name) :
    ∀ s ∈ name, IsTargetName s := by
  obtain ⟨text, -, h⟩ := bind_eq_ok.mp h
  cases kept : nonempty text with
  | none => rw [kept] at h; cases h; simp
  | some s =>
    rw [kept] at h
    dsimp only at h
    split at h
    · cases h
    · rename_i clean
      cases h
      obtain ⟨dot, colon⟩ := holdsSeparator_eq_false.mp (Bool.eq_false_iff.mpr clean)
      rintro t ⟨⟩
      exact ⟨nonempty_ne_empty s kept, dot, colon⟩

theorem targetName_text (entity : Entity) (path : String) {name : Option String}
    (h : ∀ s ∈ name, IsTargetName s) :
    targetName entity path ((name.map Tree.text).getD .null) = .ok name := by
  rw [targetName, optionalText_text, ok_bind,
    nonempty_eq_self fun s member => (h s member).ne_empty]
  cases name with
  | none => rfl
  | some s =>
    have clean := holdsSeparator_eq_false.mpr ⟨(h s rfl).dot, (h s rfl).colon⟩
    simp only [clean, Bool.false_eq_true, if_false]
    rfl

theorem directory_resolved {home path : String} {value : Tree} {d : String}
    (h : directory home path value = .ok d) : Path.Resolved home d := by
  unfold directory at h
  split at h
  · obtain rfl := Except.ok.inj h
    exact ⟨"~", Path.expandHome?_tilde (.inl rfl)⟩
  · split at h
    · obtain ⟨text, -, h⟩ := bind_eq_ok.mp h
      split at h
      · rename_i found; cases h; exact ⟨_, found⟩
      · cases h
    · cases h

theorem optionalDirectory_resolved {home path : String} {value : Option Tree} {d : Option String}
    (h : optionalDirectory home path value = .ok d) : ∀ s ∈ d, Path.Resolved home s := by
  cases value with
  | none => cases h; simp
  | some t =>
    obtain ⟨s, read, eq⟩ := bind_eq_ok.mp h
    cases eq
    rintro _ ⟨⟩
    exact directory_resolved read

/-- A directory is written with `~` and read back in full. -/
theorem optionalDirectory_contracted {home : String} (path : String)
    (absolute : Path.IsAbsolute home) {d : Option String} (h : ∀ s ∈ d, Path.Resolved home s) :
    optionalDirectory home path ((d.map (Path.contractHome home)).map Tree.text) = .ok d := by
  cases d with
  | none => rfl
  | some s =>
    have back := Path.expandHome?_contractHome ((h s rfl).expandHome? absolute)
    simp only [Option.map_some, optionalDirectory, directory, isScalar, if_true,
      Tree.written_text, ok_bind, back]
    rfl

theorem count_nonneg {path : String} {value : Tree} {n : Option Int}
    (h : count path value = .ok n) : ∀ k ∈ n, 0 ≤ k := by
  unfold count at h
  split at h
  · cases h; simp
  · split at h
    · exact absurd h (reject_ne_ok _ _ _)
    · cases h; rintro _ ⟨⟩; omega
  · exact absurd h (reject_ne_ok _ _ _)

theorem count_int {path : String} {n : Option Int} (h : ∀ k ∈ n, 0 ≤ k) :
    count path ((n.map Tree.int).getD .null) = .ok n := by
  cases n with
  | none => rfl
  | some k =>
    have nonneg := h k rfl
    simp only [Option.map_some, Option.getD_some, count]
    exact if_neg (by omega)

theorem clearFlag_flag (path : String) (clear : Bool) :
    clearFlag path ((if clear then some (Tree.flag true) else none).getD .null) = .ok clear := by
  cases clear <;> rfl

theorem splitDirection_name (path : String) (direction : Option SplitDirection) :
    splitDirection path (((direction.map SplitDirection.name).map Tree.text).getD .null) =
      .ok direction := by
  rcases direction with _ | _ | _ <;> rfl

/-- The size of a split: a positive number, with a percent sign or without. -/
structure IsSize (size : String) : Prop where
  trimmed : IsTrimmed size
  digits : isDigits (sizeDigits size) = true
  positive : ∃ n, digitsInteger (sizeDigits size) = .ok n ∧ 0 < n

/-- A number as it is written: ASCII digits, the first of them not zero. -/
structure IsDecimal (s : String) : Prop where
  digits : ∀ c ∈ s.toList, c.isDigit
  leading : s.toList.head? ≠ some '0'

theorem sizeDigits_ascii {s : String} (h : ∀ c ∈ s.toList, c.isDigit) : sizeDigits s = s := by
  refine if_neg fun percent => ?_
  exact absurd (h '%' (List.mem_of_getLast? percent)) (by decide)

theorem digitsInteger_eq_ok {s : String} {n : Int} :
    digitsInteger s = .ok n ↔ integer? s = some n := by
  unfold digitsInteger integer?
  cases integer s <;> simp [Except.mapError, Except.toOption]

theorem isSize_ofInt {n : Int} (h : 0 < n) (writable : isWritable n = true) :
    IsSize (ofInt n) := by
  obtain ⟨k, rfl⟩ := Int.eq_ofNat_of_zero_le (Int.le_of_lt h)
  change IsSize (ofNat k)
  have ascii : ∀ c ∈ (ofNat k).toList, c.isDigit := fun _ => isDigit_of_mem_ofNat
  have whole := sizeDigits_ascii ascii
  refine ⟨isTrimmed_of_not_blank fun c member => isDigit_not_blank (isDigit_ascii (ascii c member)),
    ?_, ⟨k, ?_, h⟩⟩
  · rw [whole]; exact isDigits_ascii ascii (ofNat_toList_ne_nil k)
  · rw [whole, digitsInteger_eq_ok, show ofNat k = ofInt k from rfl, integer?_ofInt writable]

theorem splitSize_isSize {path : String} {value : Tree} {size : Option String}
    (h : splitSize path value = .ok size) : ∀ s ∈ size, IsSize s := by
  unfold splitSize at h
  split at h
  · cases h; simp
  · split at h
    · rename_i positive
      obtain ⟨text, written, eq⟩ := bind_eq_ok.mp h
      obtain ⟨writable, rfl⟩ := Tree.written_eq_ok.mp written
      cases eq
      rintro _ ⟨⟩
      exact isSize_ofInt positive (Tree.isWritable_int.mp writable)
    · exact absurd h (reject_ne_ok _ _ _)
  · rename_i s
    dsimp only at h
    split at h
    · rename_i digits
      obtain ⟨n, read, h⟩ := bind_eq_ok.mp h
      split at h
      · rename_i positive
        cases h
        rintro _ ⟨⟩
        exact ⟨isTrimmed_strip s, digits, n, read, positive⟩
      · cases h
    · cases h
  · exact absurd h (reject_ne_ok _ _ _)

theorem splitSize_text (path : String) {s : String} (h : IsSize s) :
    splitSize path (.text s) = .ok (some s) := by
  obtain ⟨n, read, positive⟩ := h.positive
  simp only [splitSize, h.trimmed.strip_eq, h.digits, if_true, read, ok_bind, if_pos positive]
  rfl

/-! ### Sizes written and read again -/

/-- A percent sign is no digit, so a percentage is written as it is. -/
theorem splitSizeTree_percentage {s : String} (percent : s.toList.getLast? = some '%') :
    splitSizeTree s = .ok (.text s) := by
  refine if_neg fun digits => ?_
  rw [isDigits, Bool.and_eq_true, List.all_eq_true] at digits
  exact absurd (digits.2 '%' (List.mem_of_getLast? percent)) (by decide)

/-- A count of cells is written as the number that its digits are. -/
theorem IsSize.splitSizeTree_count {s : String} (size : IsSize s)
    (count : s.toList.getLast? ≠ some '%') :
    ∃ n, 0 < n ∧ isDigits s = true ∧ integer? s = some n ∧ splitSizeTree s = .ok (.int n) := by
  have digits := size.digits
  obtain ⟨n, read, positive⟩ := size.positive
  rw [sizeDigits, if_neg count] at digits read
  refine ⟨n, positive, digits, digitsInteger_eq_ok.mp read, ?_⟩
  rw [splitSizeTree, if_pos digits, read]
  rfl

theorem isDecimal_ofInt {n : Int} (positive : 0 < n) : IsDecimal (ofInt n) := by
  obtain ⟨k, rfl⟩ := Int.eq_ofNat_of_zero_le (Int.le_of_lt positive)
  refine ⟨fun _ => isDigit_of_mem_ofNat, ?_⟩
  change (ofNat k).toList.head? ≠ some '0'
  rw [ofNat, String.toList_ofList]
  exact head?_toDigits (by omega)

/-- Of all digits that are one number, only the plain decimal is what the number is written as. -/
theorem ofInt_eq_iff {s : String} {n : Int} (digits : isDigits s = true)
    (read : integer? s = some n) (positive : 0 < n) : ofInt n = s ↔ IsDecimal s := by
  constructor
  · intro same
    exact same ▸ isDecimal_ofInt positive
  · intro decimal
    have nonempty : s.toList ≠ [] := by
      intro empty
      simp [isDigits, String.toList_eq_nil_iff.mp empty] at digits
    obtain ⟨same, -⟩ := toDigits_ofDigitChars decimal.digits nonempty decimal.leading
    rw [integer?_ascii decimal.digits nonempty] at read
    obtain ⟨-, value⟩ := Option.ite_none_right_eq_some.mp read
    rw [← Option.some_inj.mp value]
    change ofNat _ = s
    rw [ofNat, same, String.ofList_toList]

theorem splitSize_int (path : String) {n : Int} (positive : 0 < n)
    (writable : isWritable n = true) : splitSize path (.int n) = .ok (some (ofInt n)) := by
  rw [splitSize, if_pos positive,
    Tree.written_eq_ok.mpr ⟨Tree.isWritable_int.mpr writable, rfl⟩]
  rfl

/-- A size of digits only is written as a number, so that only plain decimals come back. -/
theorem splitSize_splitSizeTree (path : String) {s : String} (h : IsSize s)
    (plain : isDigits s = true → IsDecimal s) :
    ∃ tree, splitSizeTree s = .ok tree ∧ splitSize path tree = .ok (some s) := by
  by_cases percent : s.toList.getLast? = some '%'
  · exact ⟨.text s, splitSizeTree_percentage percent, splitSize_text path h⟩
  · obtain ⟨n, positive, digits, read, written⟩ := h.splitSizeTree_count percent
    have same := (ofInt_eq_iff digits read positive).mpr (plain digits)
    exact ⟨.int n, written, by rw [splitSize_int path positive (isWritable_of_integer? read), same]⟩

/-- Every size that is accepted can be written, and what is written is accepted again. A percentage
comes back as it was. A count of cells comes back as the plain decimal of its number, so it is the
size that it was just if it was spelled in ASCII digits without leading zeros. -/
theorem splitSize_rewritten {path again : String} {value : Tree} {s : String}
    (accepted : splitSize path value = .ok (some s)) :
    ∃ tree, splitSizeTree s = .ok tree ∧
      (s.toList.getLast? = some '%' →
        tree = .text s ∧ splitSize again tree = .ok (some s)) ∧
      (s.toList.getLast? ≠ some '%' → ∃ n, 0 < n ∧ integer? s = some n ∧ tree = .int n ∧
        splitSize again tree = .ok (some (ofInt n))) ∧
      (splitSize again tree = .ok (some s) ↔ s.toList.getLast? = some '%' ∨ IsDecimal s) := by
  have size : IsSize s := splitSize_isSize accepted s rfl
  by_cases percent : s.toList.getLast? = some '%'
  · have back : splitSize again (.text s) = .ok (some s) := splitSize_text again size
    refine ⟨.text s, splitSizeTree_percentage percent, fun _ => ⟨rfl, back⟩,
      fun count => absurd percent count, ?_⟩
    exact ⟨fun _ => .inl percent, fun _ => back⟩
  · obtain ⟨n, positive, digits, read, written⟩ := size.splitSizeTree_count percent
    have back : splitSize again (.int n) = .ok (some (ofInt n)) :=
      splitSize_int again positive (isWritable_of_integer? read)
    refine ⟨.int n, written, fun signed => absurd signed percent,
      fun _ => ⟨n, positive, read, rfl, back⟩, ?_⟩
    rw [back, ← ofInt_eq_iff digits read positive, Except.ok.injEq, Option.some_inj]
    exact ⟨.inr, fun same => same.resolve_left percent⟩

/-- A count in the digits of two scripts, which comes back in those of one. -/
theorem splitSize_rewritten_mixed :
    splitSize "split_size" (.text " ٣0 ") = .ok (some "٣0") ∧
    ∃ tree, splitSizeTree "٣0" = .ok tree ∧
      ("٣0".toList.getLast? = some '%' →
        tree = .text "٣0" ∧ splitSize "split_size" tree = .ok (some "٣0")) ∧
      ("٣0".toList.getLast? ≠ some '%' → ∃ n, 0 < n ∧ integer? "٣0" = some n ∧ tree = .int n ∧
        splitSize "split_size" tree = .ok (some (ofInt n))) ∧
      (splitSize "split_size" tree = .ok (some "٣0") ↔
        "٣0".toList.getLast? = some '%' ∨ IsDecimal "٣0") := by
  have accepted : splitSize "split_size" (.text " ٣0 ") = .ok (some "٣0") :=
    eq_ok_of_toOption (by decide +kernel)
  exact ⟨accepted, splitSize_rewritten accepted⟩

/-- Leading zeros are lost. -/
theorem splitSize_zeros_lost :
    splitSize "split_size" (.text "007") = .ok (some "007") ∧ splitSizeTree "007" = .ok (.int 7) ∧
    splitSize "split_size" (.int 7) = .ok (some "7") ∧ "7" ≠ "007" :=
  ⟨rfl, rfl, rfl, by decide⟩

theorem selector_name {path : String} {value : Tree} {s : String}
    (h : selector path value = .ok (some (.name s))) : isDigits s = false := by
  unfold selector at h
  split at h
  · cases h
  · cases h
  · split at h
    · obtain ⟨n, -, eq⟩ := bind_eq_ok.mp h; cases eq
    · rename_i letters; cases h; exact Bool.eq_false_iff.mpr letters
  · exact absurd h (reject_ne_ok _ _ _)

theorem selector_selectorTree (path : String) {selected : Option Selector}
    (h : ∀ s, selected = some (.name s) → isDigits s = false) :
    selector path ((selected.map selectorTree).getD .null) = .ok selected := by
  rcases selected with _ | n | s
  · rfl
  · rfl
  · have letters := h s rfl
    simp [selectorTree, selector, letters]

end SessionPlan.Document
