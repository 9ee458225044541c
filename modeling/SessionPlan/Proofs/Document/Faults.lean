import SessionPlan.Proofs.Failure
import SessionPlan.Proofs.Path.Home
import SessionPlan.Proofs.Text.Decimal
import SessionPlan.Document.Scalars

/-! What can go wrong with a document that no problem describes. Readers look before they convert,
save in three places, and they never ask how long an integer is; and whatever they trip over can be
pointed to in the document. -/
namespace SessionPlan
open SessionPlan.Text

namespace Tree

/-- The tree stands somewhere in another. -/
inductive Part (t : Tree) : Tree → Prop
  | here : Part t t
  | item {u : Tree} {items : List Tree} (member : u ∈ items) (inside : Part t u) :
    Part t (.list items)
  | entry {key u : Tree} {entries : List (Tree × Tree)} (member : (key, u) ∈ entries)
      (inside : Part t u) : Part t (.mapping entries)

theorem Part.trans {t u whole : Tree} (inner : Part t u) (outer : Part u whole) :
    Part t whole := by
  induction outer with
  | here => exact inner
  | item member _ ih => exact .item member ih
  | entry member _ ih => exact .entry member ih

/-- Somewhere in the tree the value stands under the key. -/
def Holds (t : Tree) (key : String) (value : Tree) : Prop :=
  ∃ entries, Part (.mapping entries) t ∧ (.text key, value) ∈ entries

theorem Holds.part {t value : Tree} {key : String} (held : t.Holds key value) : Part value t := by
  obtain ⟨entries, inside, member⟩ := held
  exact Part.trans (.entry member .here) inside

theorem Holds.of_part {t whole value : Tree} {key : String} (held : t.Holds key value)
    (part : Part t whole) : whole.Holds key value := by
  obtain ⟨entries, inside, member⟩ := held
  exact ⟨entries, inside.trans part, member⟩

theorem mem_itemIntegers {n : Int} : ∀ {items : List Tree},
    n ∈ itemIntegers items ↔ ∃ item ∈ items, n ∈ item.integers
  | [] => by simp [itemIntegers]
  | item :: rest => by
    rw [itemIntegers, List.mem_append, @mem_itemIntegers n rest]
    simp

theorem mem_entryIntegers {n : Int} : ∀ {entries : List (Tree × Tree)},
    n ∈ entryIntegers entries ↔
      ∃ entry ∈ entries, n ∈ entry.1.integers ∨ n ∈ entry.2.integers
  | [] => by simp [entryIntegers]
  | (key, value) :: rest => by
    rw [entryIntegers, List.mem_append, List.mem_append, @mem_entryIntegers n rest]
    simp

/-- The integers of a part are integers of the whole. -/
theorem Part.integers {t whole : Tree} (part : Part t whole) {n : Int} (member : n ∈ t.integers) :
    n ∈ whole.integers := by
  induction part with
  | here => exact member
  | item known _ ih =>
    rw [Tree.integers]
    exact mem_itemIntegers.mpr ⟨_, known, ih⟩
  | entry known _ ih =>
    rw [Tree.integers]
    exact mem_entryIntegers.mpr ⟨_, known, .inr ih⟩

/-- So are those of the keys in a part. -/
theorem Part.keyIntegers {key value whole : Tree} {entries : List (Tree × Tree)}
    (part : Part (.mapping entries) whole) (member : (key, value) ∈ entries) {n : Int}
    (inside : n ∈ key.integers) : n ∈ whole.integers := by
  refine part.integers ?_
  rw [Tree.integers]
  exact mem_entryIntegers.mpr ⟨_, member, .inl inside⟩

end Tree

namespace Document
open SessionPlan.Tree (Part)

/-- Digits that write no number: there are too many of them, or else one of them is no decimal. -/
inductive IsFalseNumeral (s : String) : NumeralFlaw → Prop
  | overlong (digits : isDigits s = true)
      (many : digitLimit < (s.toList.takeWhile isDecimal).length) :
    IsFalseNumeral s (.overlong (s.toList.takeWhile isDecimal).length)
  | malformed (digits : isDigits s = true)
      (few : (s.toList.takeWhile isDecimal).length ≤ digitLimit)
      (other : s.toList.all isDecimal = false) : IsFalseNumeral s .malformed

/-- What readers take without a guard: digits that are no number, as a size or as the window to
start in, and a directory of an account whose name no account can have; and integers that have too
many digits to be written, be it one of the document or the number of a window, which is counted
from the base index. -/
inductive Unguarded (t : Tree) : Fault → Prop
  | size {s : String} {flaw : NumeralFlaw} (held : t.Holds "split_size" (.text s))
      (digits : IsFalseNumeral (sizeDigits (strip s)) flaw) :
    Unguarded t (.ofNumeral (sizeDigits (strip s)) flaw)
  | startup {s : String} {flaw : NumeralFlaw} (held : t.Holds "startup_window" (.text s))
      (digits : IsFalseNumeral s flaw) : Unguarded t (.ofNumeral s flaw)
  | account {key : String} {value : Tree} {rest : List Char}
      (field : key ∈ ["working_dir", "root"]) (held : t.Holds key value)
      (scalar : isScalar value = true) (tilde : value.plain.toList = '~' :: rest)
      (zero : '\x00' ∈ rest.takeWhile (· != '/')) : Unguarded t .zeroByte
  | integer {n : Int} (inside : n ∈ t.integers) (long : IsOverlong n) : Unguarded t .unwritable
  | number {base : Int} {key : String} {entries : List Tree} {k : Nat}
      (first : base = 1 ∨ t.Holds "window_base_index" (.int base))
      (field : key ∈ ["windows", "window"]) (held : t.Holds key (.list entries))
      (counted : k < entries.length) (long : IsOverlong (base + k)) : Unguarded t .unwritable

theorem Unguarded.of_part {t whole : Tree} {fault : Fault} (h : Unguarded t fault)
    (part : Part t whole) : Unguarded whole fault := by
  cases h with
  | size held digits => exact .size (held.of_part part) digits
  | startup held digits => exact .startup (held.of_part part) digits
  | account field held scalar tilde zero =>
    exact .account field (held.of_part part) scalar tilde zero
  | integer inside long => exact .integer (part.integers inside) long
  | number first field held counted long =>
    exact .number (first.imp_right (·.of_part part)) field (held.of_part part) counted long

/-- Failures that are described, or that the tree is to blame for. -/
abbrev Blamed (t : Tree) : Failure → Prop := Failure.Among (Unguarded t)

theorem failsOnly_of_part {t whole : Tree} {x : Except Failure α}
    (h : FailsOnly (Blamed t) x) (part : Part t whole) : FailsOnly (Blamed whole) x := by
  refine h.mono fun failure blamed => ?_
  cases failure with
  | problem _ => trivial
  | fault fault => exact Unguarded.of_part blamed part

theorem covers_blamed {t : Tree} {ns : List Int} (inside : ∀ n ∈ ns, n ∈ t.integers) :
    Covers (Blamed t) ns :=
  fun n member long => Unguarded.integer (inside n member) (isOverlong_iff.mpr long)

section Described
variable {faults : Fault → Prop}

theorem commandItems_failsOnly (path : String) {position : Nat} {items : List Tree}
    (covers : Covers (Failure.Among faults) (Tree.itemIntegers items)) :
    FailsOnly (Failure.Among faults) (commandItems path position items) := by
  induction items generalizing position with
  | nil => exact .ok _
  | cons item rest ih =>
    rw [Tree.itemIntegers, covers_append] at covers
    rw [commandItems]
    split
    · exact (FailsOnly.written covers.1).bind fun _ _ => (ih covers.2).bind fun _ _ => .ok _
    · exact .reject trivial rfl

theorem commands_failsOnly (path : String) {value : Tree}
    (covers : Covers (Failure.Among faults) value.integers) :
    FailsOnly (Failure.Among faults) (commands path value) := by
  unfold commands
  split
  · exact .ok _
  · exact commandItems_failsOnly path (by simpa only [Tree.integers] using covers)
  · split
    · exact (FailsOnly.written covers).bind fun _ _ => .ok _
    · exact .reject trivial rfl

theorem optionalText_failsOnly (path : String) {value : Tree}
    (covers : Covers (Failure.Among faults) value.integers) :
    FailsOnly (Failure.Among faults) (optionalText path value) := by
  unfold optionalText
  split
  · exact .ok _
  · split
    · exact (FailsOnly.written covers).bind fun _ _ => .ok _
    · exact .reject trivial rfl

theorem targetName_failsOnly (entity : Entity) (path : String) {value : Tree}
    (covers : Covers (Failure.Among faults) value.integers) :
    FailsOnly (Failure.Among faults) (targetName entity path value) := by
  refine (optionalText_failsOnly path covers).bind fun text _ => ?_
  split
  · exact .ok _
  · split
    · exact .reject trivial rfl
    · exact .ok _

theorem count_failsOnly (path : String) {value : Tree}
    (covers : Covers (Failure.Among faults) value.integers) :
    FailsOnly (Failure.Among faults) (count path value) := by
  unfold count
  split
  · exact .ok _
  · split
    · rw [Tree.integers] at covers
      exact .rejectNumbers trivial covers
    · exact .ok _
  · exact .rejectNumbers trivial covers

theorem optionalFlag_failsOnly (path : String) {value : Tree}
    (covers : Covers (Failure.Among faults) value.integers) :
    FailsOnly (Failure.Among faults) (optionalFlag path value) := by
  unfold optionalFlag
  split
  · exact .ok _
  · exact .ok _
  · exact .rejectNumbers trivial covers

theorem clearFlag_failsOnly (path : String) {value : Tree}
    (covers : Covers (Failure.Among faults) value.integers) :
    FailsOnly (Failure.Among faults) (clearFlag path value) := by
  unfold clearFlag
  split
  · exact .ok _
  · exact .ok _
  · exact .ok _
  · exact .rejectNumbers trivial covers

theorem splitDirection_failsOnly (path : String) {value : Tree}
    (covers : Covers (Failure.Among faults) value.integers) :
    FailsOnly (Failure.Among faults) (splitDirection path value) := by
  unfold splitDirection
  split
  · exact .ok _
  · split
    · exact .ok _
    · exact .reject trivial rfl
  · exact .rejectNumbers trivial covers

end Described

theorem digitsInteger_failsOnly {allowed : Failure → Prop} {s : String}
    (digits : isDigits s = true)
    (h : ∀ flaw, IsFalseNumeral s flaw → allowed (.fault (.ofNumeral s flaw))) :
    FailsOnly allowed (digitsInteger s) := by
  rw [digitsInteger, integer_digits digits]
  split
  · rename_i many
    exact .error (h _ (.overlong digits many))
  · rename_i few
    split
    · exact .ok _
    · rename_i other
      exact .error (h _ (.malformed digits (by omega) (Bool.eq_false_iff.mpr other)))

theorem splitSize_failsOnly {t value : Tree} (held : t.Holds "split_size" value) (path : String) :
    FailsOnly (Blamed t) (splitSize path value) := by
  have covers : Covers (Blamed t) value.integers := covers_blamed fun n => held.part.integers
  unfold splitSize
  split
  · exact .ok _
  · split
    · exact (FailsOnly.written covers).bind fun _ _ => .ok _
    · exact .rejectNumbers trivial covers
  · dsimp only
    split
    · rename_i s digits
      refine (digitsInteger_failsOnly digits fun flaw numeral => .size held numeral).bind
        fun n _ => ?_
      split
      · exact .ok _
      · exact .reject trivial rfl
    · exact .reject trivial rfl
  · exact .rejectNumbers trivial covers

theorem selector_failsOnly {t value : Tree} (held : t.Holds "startup_window" value)
    (path : String) : FailsOnly (Blamed t) (selector path value) := by
  unfold selector
  split
  · exact .ok _
  · exact .ok _
  · split
    · rename_i s digits
      exact (digitsInteger_failsOnly digits fun flaw numeral => .startup held numeral).bind
        fun n _ => .ok _
    · exact .ok _
  · exact .rejectNumbers trivial (covers_blamed fun n => held.part.integers)

/-- Only the name of an account can make a directory unreadable. -/
theorem directory_failsOnly {t value : Tree} {key : String}
    (field : key ∈ ["working_dir", "root"]) (held : t.Holds key value) (home path : String) :
    FailsOnly (Blamed t) (directory home path value) := by
  unfold directory
  split
  · exact .ok _
  · split
    · rename_i scalar
      refine (FailsOnly.written (covers_blamed fun n => held.part.integers)).bind
        fun text read => ?_
      obtain ⟨-, rfl⟩ := Tree.written_eq_ok.mp read
      split
      · exact .ok _
      · rename_i unknown
        obtain ⟨rest, tilde, zero⟩ := Path.expandHome?_eq_none unknown
        exact .error (.account field held scalar tilde zero)
    · exact .reject trivial rfl

end Document
end SessionPlan
