import SessionPlan.Tree.Basic
import Mathlib.Algebra.Order.Group.Nat
import Mathlib.Algebra.Order.Ring.Int
import Mathlib.Tactic.Ring

/-! Keys of tables. What a key stands for does not show how it is written: 1, 1.0 and true are one
quantity, and two moments may be one instant. Keys are the same just if they stand for the same, so
sameness is an equivalence of the keys that a table finds again. -/
namespace SessionPlan

namespace Decimal

/-! ### Numbers as multiples of the smallest positive one -/

/-- The smallest positive number is `2 ^ -depth`. -/
def depth : Nat := 1074

/-- Finite numbers as they come out of bits: the mantissa is as long as the exponent allows. -/
structure Parts.Canonical (p : Parts) : Prop where
  short : p.m < 2 ^ 53
  least : -(depth : Int) ≤ p.q
  full : p.q ≠ -(depth : Int) → 2 ^ 52 ≤ p.m

def Parts.magnitude (p : Parts) : Nat := p.m * 2 ^ (p.q + depth).toNat

def Parts.units (p : Parts) : Int := if p.negative then -p.magnitude else p.magnitude

def unitsOf (n : Int) : Int := n * (2 ^ depth : Nat)

variable {a b : Parts}

theorem canonical_of_kind {x : Float} (finite : kind x = .finite a) : a.Canonical := by
  have narrow (n : Nat) : n % Nat.pow 2 52 < 2 ^ 52 := Nat.mod_lt _ (by decide)
  unfold kind Kind.ofBits at finite
  dsimp only at finite
  split at finite
  · split at finite <;> cases finite
  · split at finite
    · cases finite
      exact ⟨(narrow _).trans (by decide), le_rfl, absurd rfl⟩
    · cases finite
      have short := narrow x.toBits.toNat
      refine ⟨?_, ?_, fun _ => ?_⟩ <;> simp only [Nat.pow_eq, depth] at * <;> omega

/-- A greater exponent goes with a full mantissa, so it shows in the magnitude. -/
theorem Parts.Canonical.q_le (left : a.Canonical) (right : b.Canonical)
    (below : b.magnitude ≤ a.magnitude) : b.q ≤ a.q := by
  by_contra higher
  have least := left.least
  have full := right.full (by omega)
  obtain ⟨d, rise⟩ : ∃ d, (b.q + depth).toNat = (a.q + depth).toNat + (d + 1) :=
    ⟨(b.q - a.q - 1).toNat, by omega⟩
  have grown : 2 ^ 53 ≤ b.m * 2 ^ (d + 1) := calc
    2 ^ 53 = 2 ^ 52 * 2 ^ 1 := rfl
    _ ≤ b.m * 2 ^ (d + 1) := Nat.mul_le_mul full (Nat.pow_le_pow_right (by decide) (by omega))
  unfold magnitude at below
  rw [rise, pow_add, mul_left_comm, mul_comm a.m] at below
  have shrunk := Nat.le_of_mul_le_mul_left below (Nat.pow_pos (by decide))
  exact absurd (grown.trans shrunk) (Nat.not_le.mpr left.short)

theorem Parts.Canonical.eq_of_magnitude (left : a.Canonical) (right : b.Canonical)
    (equal : a.magnitude = b.magnitude) : a.m = b.m ∧ a.q = b.q := by
  have exponent : a.q = b.q := le_antisymm (right.q_le left equal.le) (left.q_le right equal.ge)
  unfold magnitude at equal
  rw [exponent] at equal
  exact ⟨Nat.eq_of_mul_eq_mul_right (Nat.pow_pos (by decide)) equal, exponent⟩

theorem magnitude_eq_zero_iff : a.magnitude = 0 ↔ a.m = 0 := by
  simp [Parts.magnitude]

theorem Parts.natAbs_units (a : Parts) : a.units.natAbs = a.magnitude := by
  unfold units
  split <;> omega

/-- Two numbers of one value are written alike, but for the sign of a zero. -/
theorem Parts.Canonical.units_eq_iff (left : a.Canonical) (right : b.Canonical) :
    a.units = b.units ↔ a = b ∨ a.m = 0 ∧ b.m = 0 := by
  constructor
  · intro equal
    have size : a.magnitude = b.magnitude := by
      rw [← a.natAbs_units, ← b.natAbs_units, equal]
    obtain ⟨mantissa, exponent⟩ := left.eq_of_magnitude right size
    by_cases zero : a.m = 0
    · exact .inr ⟨zero, mantissa ▸ zero⟩
    · have positive : a.magnitude ≠ 0 := mt magnitude_eq_zero_iff.mp zero
      have sign : a.negative = b.negative := by
        unfold units at equal
        cases signA : a.negative <;> cases signB : b.negative
        all_goals
          simp only [signA, signB, if_true, if_false, Bool.false_eq_true] at equal ⊢
          try omega
      exact .inl (by cases a; cases b; simp_all)
  · rintro (rfl | ⟨zeroA, zeroB⟩)
    · rfl
    · simp [units, magnitude, zeroA, zeroB]

theorem isNatural_iff (least : -(depth : Int) ≤ a.q) (n : Nat) :
    isNatural a.m a.q n = true ↔ a.magnitude = n * 2 ^ depth := by
  unfold isNatural Parts.magnitude
  split
  · have parts : 2 ^ depth = 2 ^ a.q.natAbs * 2 ^ (a.q + depth).toNat := by
      rw [← pow_add]
      congr 1
      omega
    rw [beq_iff_eq, Nat.pow_eq, parts, ← mul_assoc]
    exact (Nat.mul_left_inj (Nat.pow_pos (by decide)).ne').symm
  · have parts : 2 ^ (a.q + depth).toNat = 2 ^ a.q.toNat * 2 ^ depth := by
      rw [← pow_add]
      congr 1
      omega
    rw [beq_iff_eq, Nat.pow_eq, parts, ← mul_assoc]
    exact (Nat.mul_left_inj (Nat.pow_pos (by decide)).ne').symm

/-- What a number is, when it is no NaN: a multiple of the smallest positive one, or infinite with
a sign. -/
def value? (x : Float) : Option (Int ⊕ Bool) :=
  match kind x with
  | .finite p => some (.inl p.units)
  | .infinite negative => some (.inr negative)
  | .notANumber => none

theorem equals_iff (x y : Float) :
    equals x y = true ↔ (value? x).isSome = true ∧ value? x = value? y := by
  unfold equals value?
  cases kindX : kind x with
  | finite p =>
    cases kindY : kind y with
    | finite q =>
      have alike := (canonical_of_kind kindX).units_eq_iff (canonical_of_kind kindY)
      simp [alike]
    | _ => simp
  | infinite p => cases kindY : kind y <;> simp
  | notANumber => simp

theorem unitsOf_zero : unitsOf 0 = 0 := Int.zero_mul _

theorem unitsOf_inj {m n : Int} : unitsOf m = unitsOf n ↔ m = n := by
  have positive : (2 ^ depth : Nat) ≠ 0 := (Nat.pow_pos (by decide)).ne'
  exact Int.mul_eq_mul_right_iff (Int.natCast_ne_zero.mpr positive)

theorem unitsOf_neg_iff (n : Int) : unitsOf n < 0 ↔ n < 0 := by
  have positive : (0 : Int) < (2 ^ depth : Nat) := Int.natCast_pos.mpr (Nat.pow_pos (by decide))
  exact ⟨fun below => neg_of_mul_neg_left below positive.le,
    fun below => mul_neg_of_neg_of_pos below positive⟩

theorem equalsInt_iff (x : Float) (n : Int) :
    equalsInt x n = true ↔ value? x = some (.inl (unitsOf n)) := by
  unfold equalsInt value?
  cases kindX : kind x with
  | finite p =>
    have natural := isNatural_iff (canonical_of_kind kindX).least n.natAbs
    have size : (unitsOf n).natAbs = n.natAbs * 2 ^ depth := Int.natAbs_mul ..
    have below := unitsOf_neg_iff n
    have zero : unitsOf n = unitsOf 0 ↔ n = 0 := unitsOf_inj
    rw [unitsOf_zero] at zero
    simp only [Bool.and_eq_true, natural, ← size, Option.some.injEq, Sum.inl.injEq, Bool.or_eq_true,
      beq_iff_eq]
    unfold Parts.units
    cases p.negative with
    | true =>
      rw [if_pos rfl, eq_comm (a := true), decide_eq_true_eq]
      omega
    | false =>
      rw [if_neg Bool.false_ne_true, eq_comm (a := false), decide_eq_false_iff_not]
      omega
  | _ => simp

end Decimal

namespace Tree

/-! ### What a key stands for -/

inductive Essence where
  | null
  | number (value : Int ⊕ Bool)
  | nan (source : Nat)
  | text (value : String)
  | bytes (value : List UInt8)
  | date (value : Calendar.Date)
  | moment (value : Calendar.Moment ⊕ Int)
  | clock (value : Calendar.Clock)
  | tuple (parts : List Essence)

/-- A moment with an offset stands for an instant. -/
def instantOf (m : Calendar.Moment) : Calendar.Moment ⊕ Int :=
  match m.offset with
  | some offset => .inr (m.instant offset)
  | none => .inl m

mutual

/-- What a key stands for. Trees that cannot be keys stand for nothing. -/
def essence? : Tree → Option Essence
  | .null => some .null
  | .flag b => some (.number (.inl (Decimal.unitsOf (if b then 1 else 0))))
  | .int n => some (.number (.inl (Decimal.unitsOf n)))
  | .real x => (Decimal.value? x).map .number
  | .nan source => some (.nan source)
  | .text s => some (.text s)
  | .bytes value => some (.bytes value)
  | .date value => some (.date value)
  | .moment value => some (.moment (instantOf value))
  | .clock value => some (.clock value)
  | .tuple items => (essences? items).map .tuple
  | .list _ | .mapping _ | .set _ | .cycle => none

def essences? : List Tree → Option (List Essence)
  | [] => some []
  | x :: xs => match essence? x, essences? xs with
    | some e, some es => some (e :: es)
    | _, _ => none

end

theorem moment_same_iff (a b : Calendar.Moment) :
    a.same b = true ↔ instantOf a = instantOf b := by
  unfold Calendar.Moment.same instantOf
  cases a.offset <;> cases b.offset <;> simp

theorem map_number_eq_iff {v w : Option (Int ⊕ Bool)} :
    v.map Essence.number = w.map Essence.number ↔ v = w :=
  (Option.map_injective fun _ _ => Essence.number.inj).eq_iff

theorem map_tuple_eq_iff {v w : Option (List Essence)} :
    v.map Essence.tuple = w.map Essence.tuple ↔ v = w :=
  (Option.map_injective fun _ _ => Essence.tuple.inj).eq_iff

theorem map_number_eq_tuple_iff {v : Option (Int ⊕ Bool)} {w : Option (List Essence)} :
    v.map Essence.number = w.map Essence.tuple ↔ v = none ∧ w = none := by
  cases v <;> cases w <;> simp

/-- Only two tuples are compared part by part. -/
theorem same_iff_of_apart {a b : Tree} (aKey : a.isKey = true) (bKey : b.isKey = true)
    (apart : ∀ xs ys, a = .tuple xs → b ≠ .tuple ys) :
    same a b = true ↔ a.essence?.isSome = true ∧ a.essence? = b.essence? := by
  cases a <;> cases b <;> simp [isKey] at aKey bKey apart <;>
    simp [same, sameLeaf, essence?, integer?, moment_same_iff, Decimal.equals_iff,
      Decimal.equalsInt_iff, Decimal.unitsOf_inj, map_number_eq_iff, map_number_eq_tuple_iff,
      eq_comm (a := Option.map Essence.tuple _)] <;>
    simp +contextual [Option.isSome_iff_ne_none]

mutual

/-- Keys are the same just if they stand for the same. -/
theorem same_iff : ∀ {a b : Tree}, a.isKey = true → b.isKey = true →
    (same a b = true ↔ a.essence?.isSome = true ∧ a.essence? = b.essence?)
  | .tuple xs, b, aKey, bKey => by
    cases b with
    | tuple ys =>
      rw [same, sameItems_iff aKey bKey, essence?, essence?, Option.isSome_map, map_tuple_eq_iff]
    | _ => exact same_iff_of_apart aKey bKey nofun
  | .null, _, aKey, bKey | .flag _, _, aKey, bKey | .int _, _, aKey, bKey | .real _, _, aKey, bKey
  | .nan _, _, aKey, bKey | .text _, _, aKey, bKey | .bytes _, _, aKey, bKey
  | .date _, _, aKey, bKey | .moment _, _, aKey, bKey | .clock _, _, aKey, bKey
  | .cycle, _, aKey, bKey => same_iff_of_apart aKey bKey nofun

theorem sameItems_iff : ∀ {xs ys : List Tree}, areKeys xs = true → areKeys ys = true →
    (sameItems xs ys = true ↔ (essences? xs).isSome = true ∧ essences? xs = essences? ys)
  | [], [], _, _ => by simp [sameItems, essences?]
  | [], y :: ys, _, _ => by
    simp only [sameItems, essences?]
    cases y.essence? <;> cases essences? ys <;> simp
  | x :: xs, [], _, _ => by
    simp only [sameItems, essences?]
    cases x.essence? <;> cases essences? xs <;> simp
  | x :: xs, y :: ys, xsKeys, ysKeys => by
    simp only [areKeys, Bool.and_eq_true] at xsKeys ysKeys
    rw [sameItems, Bool.and_eq_true, same_iff xsKeys.1 ysKeys.1, sameItems_iff xsKeys.2 ysKeys.2]
    simp only [essences?]
    cases x.essence? <;> cases y.essence? <;> cases essences? xs <;> cases essences? ys <;> simp

end

/-- A key that a table finds again. -/
structure IsFound (key : Tree) : Prop where
  isKey : key.isKey = true
  itself : same key key = true

theorem isFound_text (s : String) : IsFound (.text s) := ⟨rfl, by simp [same, sameLeaf]⟩

theorem isFound_int (n : Int) : IsFound (.int n) := ⟨rfl, by simp [same, sameLeaf, integer?]⟩

theorem isFound_flag (b : Bool) : IsFound (.flag b) := ⟨rfl, by simp [same, sameLeaf, integer?]⟩

variable {a b c : Tree}

theorem same_symm (aKey : a.IsFound) (bKey : b.IsFound) (here : same a b = true) :
    same b a = true := by
  obtain ⟨-, equal⟩ := (same_iff aKey.isKey bKey.isKey).mp here
  rw [same_iff bKey.isKey aKey.isKey, ← equal]
  exact ⟨((same_iff aKey.isKey aKey.isKey).mp aKey.itself).1, rfl⟩

theorem same_trans (aKey : a.IsFound) (bKey : b.IsFound) (cKey : c.IsFound)
    (first : same a b = true) (second : same b c = true) : same a c = true := by
  obtain ⟨known, equal⟩ := (same_iff aKey.isKey bKey.isKey).mp first
  obtain ⟨-, further⟩ := (same_iff bKey.isKey cKey.isKey).mp second
  exact (same_iff aKey.isKey cKey.isKey).mpr ⟨known, equal.trans further⟩

end Tree
end SessionPlan
