import JsonLayout.Proofs.Number.Written
import Mathlib.Tactic.Positivity

/-!
# Equal numbers

Numbers that are equal need not be identical: an integer may be equal to a double, and the two zeros
are equal.  As they are written they are identical, as long as every double that is a whole number
is written as one.  From `10 ^ 21` on, doubles are not.

## Main definitions

* `Double.IsPlain`, `Number.IsPlain`: the numbers below that threshold.

## Main results

* `Double.toInt?_finite_eq_some_iff`: the integer that a double is equal to.
* `Number.asWritten_eq_iff`: numbers are written as the same number if and only if they are equal.
-/

namespace JsonLayout

/-! ### Doubles -/

namespace Magnitude

theorem one_pos : 0 < one := by
  unfold one
  positivity

theorem index_eq_of_units_eq {m n : Magnitude} (h : m.units = n.units) : m.index = n.index := by
  rw [← nearestIndex_unitsAt m.index, ← units, h, units, nearestIndex_unitsAt]

end Magnitude

namespace Double

/-- A finite double of a magnitude below `10 ^ 21`. -/
def IsPlain : Double → Prop
  | .finite _ m => m.units < 10 ^ 21 * Magnitude.one
  | _ => False

instance : DecidablePred IsPlain
  | .finite _ m => inferInstanceAs (Decidable (m.units < 10 ^ 21 * Magnitude.one))
  | .nan | .infinite _ => inferInstanceAs (Decidable False)

variable {x y : Double} {n : Int}

/-- The integer that a finite double is equal to, by its size and its sign. -/
theorem toInt?_finite_eq_some_iff {negative : Bool} {m : Magnitude} :
    (Double.finite negative m).toInt? = some n ↔
      m.units = n.natAbs * Magnitude.one ∧ (n ≠ 0 → (negative = true ↔ n < 0)) := by
  rw [toInt?]
  by_cases hmod : m.units % Magnitude.one = 0
  · obtain ⟨q, hq⟩ := Nat.dvd_of_mod_eq_zero hmod
    have hunits : m.units = n.natAbs * Magnitude.one ↔ q = n.natAbs := by
      rw [hq, Nat.mul_comm, Nat.mul_left_inj (Nat.ne_of_gt Magnitude.one_pos)]
    have hquotient : m.units / Magnitude.one = q := by
      rw [hq, Nat.mul_div_cancel_left _ Magnitude.one_pos]
    rw [if_pos hmod, hquotient, hunits, Option.some.injEq]
    cases negative with
    | false =>
      simp only [Bool.false_eq_true, if_false, false_iff]
      omega
    | true =>
      simp only [if_true, true_iff]
      omega
  · rw [if_neg hmod]
    refine iff_of_false (fun h => by cases h) ?_
    rintro ⟨hunits, -⟩
    exact hmod (by rw [hunits, Nat.mul_mod_left])

theorem IsPlain.natAbs_lt (h : x.IsPlain) (hn : x.toInt? = some n) : n.natAbs < 10 ^ 21 := by
  cases x with
  | finite negative m =>
    obtain ⟨hunits, -⟩ := toInt?_finite_eq_some_iff.mp hn
    rw [IsPlain, hunits] at h
    exact Nat.lt_of_mul_lt_mul_right h
  | _ => cases h

theorem IsPlain.ne_nan (h : x.IsPlain) : x ≠ .nan := by
  rintro rfl
  exact h

/-- Doubles that are equal to the same integer are equal. -/
theorem same_of_toInt? (hx : x.toInt? = some n) (hy : y.toInt? = some n) : x.same y := by
  match x, y, hx, hy with
  | .finite s l, .finite t m, hx, hy =>
    obtain ⟨hl, hs⟩ := toInt?_finite_eq_some_iff.mp hx
    obtain ⟨hm, ht⟩ := toInt?_finite_eq_some_iff.mp hy
    have hindex : l.index = m.index := Magnitude.index_eq_of_units_eq (hl.trans hm.symm)
    rw [same, hindex, beq_self_eq_true, Bool.true_and, Bool.or_eq_true, beq_iff_eq, beq_iff_eq]
    by_cases hn : n = 0
    · right
      rw [← Magnitude.units_eq_zero_iff, hm, hn, Int.natAbs_zero, Nat.zero_mul]
    · exact .inl (Bool.eq_iff_iff.mpr ((hs hn).trans (ht hn).symm))

/-- Equal doubles are identical, or zeros. -/
theorem eq_or_toInt?_of_same (h : x.same y) : x = y ∨ (x.toInt? = some 0 ∧ y.toInt? = some 0) := by
  match x, y with
  | .infinite s, .infinite t => exact .inl (congrArg _ (eq_of_beq h))
  | .finite s l, .finite t m =>
    rw [same, Bool.and_eq_true, Bool.or_eq_true, beq_iff_eq, beq_iff_eq, beq_iff_eq] at h
    obtain ⟨hindex, rfl | hzero⟩ := h
    · obtain ⟨i, hi⟩ := l
      cases m
      cases hindex
      exact .inl rfl
    · have hunits : ∀ m : Magnitude, m.index = 0 → ∀ s, (Double.finite s m).toInt? = some 0 := by
        intro m hm s
        refine toInt?_finite_eq_some_iff.mpr ⟨?_, fun h0 => absurd rfl h0⟩
        rw [Magnitude.units_eq_zero_iff.mpr hm, Int.natAbs_zero, Nat.zero_mul]
      exact .inr ⟨hunits l hzero s, hunits m (hindex ▸ hzero) t⟩

end Double

/-! ### Numbers -/

namespace Number

/-- A number that has one text for its value: an integer within the limit on digits, or a finite
double of a magnitude below `10 ^ 21`. -/
def IsPlain : Number → Prop
  | .int n => n.natAbs < 10 ^ Decimal.digitLimit
  | .double x => x.IsPlain

instance : DecidablePred IsPlain
  | .int n => inferInstanceAs (Decidable (n.natAbs < 10 ^ Decimal.digitLimit))
  | .double x => inferInstanceAs (Decidable x.IsPlain)

theorem IsPlain.writable {n : Number} (h : n.IsPlain) (opts : Options) : n.Writable opts := by
  match n, h with
  | .int n, h => exact h
  | .double (.finite s m), _ => exact .inl rfl

theorem asWritten_of_toInt? {x : Double} {n : Int} (h : x.IsPlain) (hn : x.toInt? = some n) :
    (Number.double x).asWritten = .int n := by
  simp only [asWritten, hn, if_pos (h.natAbs_lt hn)]

theorem asWritten_of_toInt?_eq_none {x : Double} (h : x.toInt? = none) :
    (Number.double x).asWritten = .double x := by
  simp only [asWritten, h]

/-- An integer and a double are written as the same number if the double is that integer. -/
theorem asWritten_int_eq_iff {i : Int} {x : Double} (hx : x.IsPlain) :
    (Number.int i).asWritten = (Number.double x).asWritten ↔ x.toInt? = some i := by
  cases hi : x.toInt? with
  | none =>
    rw [asWritten_of_toInt?_eq_none hi]
    exact iff_of_false (fun h => by cases h) (fun h => by cases h)
  | some k =>
    rw [asWritten_of_toInt? hx hi, asWritten, Number.int.injEq, Option.some.injEq, eq_comm]

/-- Two doubles are written as the same number if they are equal. -/
theorem asWritten_double_eq_iff {x y : Double} (hx : x.IsPlain) (hy : y.IsPlain) :
    (Number.double x).asWritten = (Number.double y).asWritten ↔ x.same y = true := by
  constructor
  · intro h
    cases hi : y.toInt? with
    | some i =>
      rw [asWritten_of_toInt? hy hi, eq_comm] at h
      exact Double.same_of_toInt? ((asWritten_int_eq_iff hx).mp h) hi
    | none =>
      cases hi' : x.toInt? with
      | some i =>
        rw [asWritten_of_toInt? hx hi', asWritten_of_toInt?_eq_none hi] at h
        cases h
      | none =>
        rw [asWritten_of_toInt?_eq_none hi, asWritten_of_toInt?_eq_none hi',
          Number.double.injEq] at h
        rw [h]
        exact Double.same_self hy.ne_nan
  · intro h
    rcases Double.eq_or_toInt?_of_same h with rfl | ⟨hi, hi'⟩
    · rfl
    · rw [asWritten_of_toInt? hx hi, asWritten_of_toInt? hy hi']

/-- **Equal numbers** are written as the same number, and others are not. -/
theorem asWritten_eq_iff {m n : Number} (hm : m.IsPlain) (hn : n.IsPlain) :
    m.asWritten = n.asWritten ↔ m.same n = true := by
  cases m with
  | int m =>
    cases n with
    | int n => rw [asWritten, asWritten, Number.int.injEq, same, beq_iff_eq]
    | double y => rw [asWritten_int_eq_iff hn, same, beq_iff_eq]
  | double x =>
    cases n with
    | int n => rw [eq_comm, asWritten_int_eq_iff hm, same, beq_iff_eq]
    | double y => exact asWritten_double_eq_iff hm hn

end Number

end JsonLayout
