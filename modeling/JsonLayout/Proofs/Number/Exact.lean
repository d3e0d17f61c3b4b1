import JsonLayout.Proofs.Alike
import JsonLayout.Proofs.Number.Equality
import Mathlib.Tactic.Linarith

/-!
# Exact values

Every integer, and every finite double, is a rational number.  Numbers are equal if and only if they
are the same rational number or the same infinity, whichever kinds they are of: nothing is rounded
to compare them.  So equality of numbers is an equivalence, where there is no `NaN`.

## Main definitions

* `ExactValue`, `Number.worth?`: what a number is worth.

## Main results

* `Number.alike_iff_worth?`: numbers are alike if and only if they are worth the same.
* `Number.same_iff_worth?`: so it is with equality, except for `NaN`.
-/

namespace JsonLayout

/-- What a number may be worth. -/
inductive ExactValue where
  | rational (q : ℚ)
  | infinite (negative : Bool)

/-! ### Signs -/

/-- A rational number with a sign. -/
def withSign (negative : Bool) (q : ℚ) : ℚ := if negative then -q else q

/-- Only zero is the same with both signs. -/
theorem withSign_eq_iff {s t : Bool} {p q : ℚ} (hp : 0 ≤ p) (hq : 0 ≤ q) :
    withSign s p = withSign t q ↔ p = q ∧ (s = t ∨ p = 0) := by
  have hmixed : -p = q ↔ p = q ∧ p = 0 := by
    constructor
    · intro h
      constructor <;> linarith
    · rintro ⟨rfl, hzero⟩
      rw [hzero, neg_zero]
  have hmixed' : p = -q ↔ p = q ∧ p = 0 := neg_eq_iff_eq_neg.symm.trans hmixed
  cases s <;> cases t <;> simp [withSign, hmixed, hmixed']

theorem withSign_natAbs (n : Int) : withSign (decide (n < 0)) (n.natAbs : ℚ) = n := by
  rw [withSign]
  split
  · next h =>
    rw [decide_eq_true_iff] at h
    rw [Nat.cast_natAbs, abs_of_neg h, Int.cast_neg, neg_neg]
  · next h =>
    rw [decide_eq_true_iff, not_lt] at h
    rw [Nat.cast_natAbs, abs_of_nonneg h]

/-! ### Magnitudes -/

namespace Magnitude

/-- A magnitude as a rational number. -/
def value (m : Magnitude) : ℚ := m.units / one

theorem one_cast_pos : (0 : ℚ) < (one : ℚ) := Nat.cast_pos.mpr one_pos

theorem value_nonneg (m : Magnitude) : 0 ≤ m.value := by
  rw [value]
  positivity

theorem value_eq_natCast_iff {m : Magnitude} {n : ℕ} : m.value = n ↔ m.units = n * one := by
  rw [value, div_eq_iff one_cast_pos.ne', ← Nat.cast_mul, Nat.cast_inj]

theorem value_eq_iff {m n : Magnitude} : m.value = n.value ↔ m.index = n.index := by
  rw [value, value, div_left_inj' one_cast_pos.ne', Nat.cast_inj]
  refine ⟨index_eq_of_units_eq, fun h => ?_⟩
  rw [units, units, h]

theorem value_eq_zero_iff {m : Magnitude} : m.value = 0 ↔ m.index = 0 := by
  rw [← units_eq_zero_iff, ← Nat.cast_zero, value_eq_natCast_iff, Nat.zero_mul]

end Magnitude

/-! ### Numbers -/

/-- What a double is worth: nothing if it is `NaN`. -/
def Double.worth? : Double → Option ExactValue
  | .nan => none
  | .infinite negative => some (.infinite negative)
  | .finite negative m => some (.rational (withSign negative m.value))

/-- **What a number is worth.** -/
def Number.worth? : Number → Option ExactValue
  | .int n => some (.rational n)
  | .double x => x.worth?

namespace Double

variable {x y : Double}

theorem worth?_eq_none_iff : x.worth? = none ↔ x = .nan := by
  cases x <;> simp [worth?]

/-- Doubles are equal if they are worth the same. -/
theorem same_iff_worth? (hx : x ≠ .nan) : x.same y = true ↔ x.worth? = y.worth? := by
  match x, y with
  | .nan, _ => exact absurd rfl hx
  | .infinite s, .infinite t => simp [same, worth?]
  | .infinite s, .nan | .infinite s, .finite t n => simp [same, worth?]
  | .finite s m, .nan | .finite s m, .infinite t => simp [same, worth?]
  | .finite s m, .finite t n =>
    rw [worth?, worth?, Option.some.injEq, ExactValue.rational.injEq,
      withSign_eq_iff m.value_nonneg n.value_nonneg, Magnitude.value_eq_iff,
      Magnitude.value_eq_zero_iff, same, Bool.and_eq_true, Bool.or_eq_true, beq_iff_eq, beq_iff_eq,
      beq_iff_eq]

/-- A double is equal to the integer that it is worth. -/
theorem toInt?_eq_some_iff_worth? {n : Int} :
    x.toInt? = some n ↔ x.worth? = some (.rational n) := by
  cases x with
  | nan | infinite => simp [toInt?, worth?]
  | finite negative m =>
    rw [toInt?_finite_eq_some_iff, worth?, Option.some.injEq, ExactValue.rational.injEq,
      ← withSign_natAbs n, withSign_eq_iff m.value_nonneg (Nat.cast_nonneg _),
      Magnitude.value_eq_natCast_iff]
    refine and_congr_right fun hunits => ?_
    have hzero : m.value = 0 ↔ n = 0 := by
      rw [Magnitude.value_eq_natCast_iff.mpr hunits, Nat.cast_eq_zero, Int.natAbs_eq_zero]
    have hsign : negative = decide (n < 0) ↔ (negative = true ↔ n < 0) := by
      rw [Bool.eq_iff_iff, decide_eq_true_iff]
    rw [hzero, hsign]
    exact or_iff_not_imp_right.symm

end Double

namespace Number

variable {m n : Number}

theorem worth?_eq_none_iff : n.worth? = none ↔ n = .double .nan := by
  cases n with
  | int n => simp [worth?]
  | double x => rw [worth?, Double.worth?_eq_none_iff, double.injEq]

/-- **Numbers are equal** if and only if they are worth the same. -/
theorem same_iff_worth? (hm : m ≠ .double .nan) : m.same n = true ↔ m.worth? = n.worth? := by
  match m, n with
  | .int m, .int n =>
    rw [same, worth?, worth?, beq_iff_eq, Option.some.injEq, ExactValue.rational.injEq,
      Int.cast_inj]
  | .int m, .double x =>
    rw [same, worth?, worth?, beq_iff_eq, Double.toInt?_eq_some_iff_worth?, eq_comm]
  | .double x, .int n =>
    rw [same, worth?, worth?, beq_iff_eq, Double.toInt?_eq_some_iff_worth?]
  | .double x, .double y => exact Double.same_iff_worth? fun hx => hm (congrArg _ hx)

theorem same_nan (n : Number) : (Number.double .nan).same n = false := by
  cases n with
  | int => rfl
  | double x => cases x <;> rfl

/-- **Numbers are alike** if and only if they are worth the same, or nothing. -/
theorem alike_iff_worth? : m.Alike n ↔ m.worth? = n.worth? := by
  by_cases hm : m = .double .nan
  · subst hm
    rw [Alike, same_nan, worth?_eq_none_iff.mpr rfl, eq_comm (a := none), worth?_eq_none_iff]
    simp
  · rw [alike_iff_same hm, same_iff_worth? hm]

/-- Equal numbers are worth something, and the same. -/
theorem same_iff_exists_worth? :
    m.same n = true ↔ ∃ v, m.worth? = some v ∧ n.worth? = some v := by
  by_cases hm : m = .double .nan
  · subst hm
    rw [same_nan, worth?_eq_none_iff.mpr rfl]
    simp
  · obtain ⟨v, hv⟩ := Option.ne_none_iff_exists'.mp (mt worth?_eq_none_iff.mp hm)
    rw [same_iff_worth? hm, hv]
    simp [eq_comm]

end Number

end JsonLayout
