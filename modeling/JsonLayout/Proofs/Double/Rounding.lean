import JsonLayout.Double.Shortest
import JsonLayout.Proofs.Decimal
import Mathlib.Tactic.NormNum
import Mathlib.Tactic.SplitIfs

/-!
# Rounding and reading back

Rounding looks at a number, not at how it is written: a common factor of numerator and denominator
changes nothing, and neither do zeros at the end of the digits.  A number that is a double is
rounded to itself, so a double written out in full reads back, and so does its shortest text.

## Main results

* `Magnitude.nearestIndex_mul`, `Magnitude.nearestIndexOfDecimal_mul_pow`: rounding does not depend
  on how a number is written.
* `Magnitude.nearestIndex_unitsAt`: a magnitude is rounded to itself.
* `Magnitude.nearestIndexOfDecimal_exact`, `Magnitude.nearestIndexOfDecimal_shortest`: a magnitude
  is read back from its exact and from its shortest decimal number.
-/

namespace JsonLayout

namespace Magnitude

/-! ### A common factor -/

/-- **Rounding a fraction** does not depend on how it is reduced. -/
theorem nearestIndex_mul (a b : Nat) {c : Nat} (hc : 0 < c) :
    nearestIndex (a * c) (b * c) = nearestIndex a b := by
  have hstep : ∀ k, b * c * 2 ^ k = b * 2 ^ k * c := fun k => Nat.mul_right_comm b c _
  have hrest : ∀ n, 2 * (a * c % (n * c)) = 2 * (a % n) * c := by
    intro n
    rw [Nat.mul_mod_mul_right, Nat.mul_assoc]
  simp only [nearestIndex, Nat.mul_div_mul_right _ _ hc, hstep, hrest,
    Nat.mul_lt_mul_right hc, Nat.mul_left_inj (Nat.ne_of_gt hc)]

/-- Zeros at the end of the digits do not count. -/
theorem leadingExponent_mul_pow {n : Nat} (hn : 0 < n) (e : Int) (k : Nat) :
    Decimal.leadingExponent ⟨n * 10 ^ k, e - k⟩ = Decimal.leadingExponent ⟨n, e⟩ := by
  simp only [Decimal.leadingExponent, Decimal.size_mul_pow hn]
  omega

/-- A decimal number that is not told from zero and infinity by its first digit is rounded as a
fraction, whose denominator may be any large enough power of ten. -/
theorem nearestIndexOfDecimal_eq {n : Nat} (hn : n ≠ 0) {e : Int} {k : Nat} (hk : 0 ≤ e + k)
    (hlarge : ¬ 310 ≤ Decimal.leadingExponent ⟨n, e⟩)
    (hsmall : ¬ Decimal.leadingExponent ⟨n, e⟩ < -330) :
    nearestIndexOfDecimal ⟨n, e⟩ = nearestIndex (n * 10 ^ (e + k).toNat * one) (10 ^ k) := by
  have hten : ∀ i : Nat, 0 < 10 ^ i := fun i => Nat.pow_pos (by decide)
  rw [nearestIndexOfDecimal, if_neg hn, if_neg hlarge, if_neg hsmall]
  dsimp only
  split_ifs with he
  · rw [← nearestIndex_mul _ 1 (hten k), Nat.one_mul, show (e + k).toNat = e.toNat + k by omega,
      Nat.pow_add, ← Nat.mul_assoc n, Nat.mul_right_comm _ one]
  · rw [← nearestIndex_mul _ _ (hten (e + k).toNat), ← Nat.pow_add,
      show (-e).toNat + (e + k).toNat = k by omega, Nat.mul_right_comm]

theorem nearestIndexOfDecimal_of_digits {d : Decimal} (h : d.digits = 0) :
    nearestIndexOfDecimal d = 0 := if_pos h

/-- **Rounding a decimal number** does not depend on the zeros at the end of its digits. -/
theorem nearestIndexOfDecimal_mul_pow (d : Decimal) (k : Nat) :
    nearestIndexOfDecimal ⟨d.digits * 10 ^ k, d.exponent - k⟩ = nearestIndexOfDecimal d := by
  obtain ⟨n, e⟩ := d
  dsimp only
  have hten : 0 < 10 ^ k := Nat.pow_pos (by decide)
  rcases Nat.eq_zero_or_pos n with rfl | hn
  · rw [Nat.zero_mul]
    rfl
  have hn' : n * 10 ^ k ≠ 0 := Nat.ne_of_gt (Nat.mul_pos hn hten)
  have hlead := leadingExponent_mul_pow hn e k
  by_cases hlarge : 310 ≤ Decimal.leadingExponent ⟨n, e⟩
  · rw [nearestIndexOfDecimal, nearestIndexOfDecimal, if_neg hn', if_neg (Nat.ne_of_gt hn), hlead,
      if_pos hlarge, if_pos hlarge]
  by_cases hsmall : Decimal.leadingExponent ⟨n, e⟩ < -330
  · rw [nearestIndexOfDecimal, nearestIndexOfDecimal, if_neg hn', if_neg (Nat.ne_of_gt hn), hlead,
      if_neg hlarge, if_neg hlarge, if_pos hsmall, if_pos hsmall]
  -- both are fractions with the same denominator, and so with the same numerator
  obtain ⟨m, hm⟩ : ∃ m : Nat, 0 ≤ e - k + m := ⟨(k - e).toNat, by omega⟩
  rw [nearestIndexOfDecimal_eq hn' hm (by rwa [hlead]) (by rwa [hlead]),
    nearestIndexOfDecimal_eq (Nat.ne_of_gt hn) (k := m) (by omega) hlarge hsmall, Nat.mul_assoc n,
    ← Nat.pow_add, show k + (e - k + m).toNat = (e + m).toNat by omega]

/-! ### Numbers that are magnitudes -/

theorem unitsAt_of_lt {i : Nat} (h : i < 2 ^ 52) : unitsAt i = i := by
  rw [unitsAt, Nat.div_eq_of_lt h, Nat.mod_eq_of_lt h, if_pos rfl]

theorem unitsAt_of_le {i : Nat} (h : 2 ^ 52 ≤ i) :
    unitsAt i = (2 ^ 52 + i % 2 ^ 52) * 2 ^ (i / 2 ^ 52 - 1) := by
  have hpos : i / 2 ^ 52 ≠ 0 := by omega
  rw [unitsAt, if_neg hpos]

/-- A number of units on the grid that rounding uses for it gets its place there. -/
theorem nearestIndex_one {u s : Nat} (h : u.log2 - 52 = s) (q : Nat) (hq : u = q * 2 ^ s) :
    nearestIndex u 1 = s * 2 ^ 52 + q := by
  have hpos : 0 < 2 ^ s := Nat.two_pow_pos s
  have hne : ¬ (2 ^ s < 0 ∨ (0 = 2 ^ s ∧ (s * 2 ^ 52 + q) % 2 = 1)) := by omega
  simp only [nearestIndex, Nat.div_one, h, Nat.one_mul]
  rw [hq, Nat.mul_div_cancel _ hpos, Nat.mul_mod_left, Nat.mul_zero, if_neg hne]

/-- **A magnitude is rounded to itself.** -/
theorem nearestIndex_unitsAt (i : Nat) : nearestIndex (unitsAt i) 1 = i := by
  rcases Nat.lt_or_ge i (2 ^ 52) with h | h
  · have hlog : i.log2 - 52 = 0 := by
      rcases Nat.eq_zero_or_pos i with rfl | hi
      · rfl
      · have := (Nat.log2_lt (Nat.ne_of_gt hi)).mpr h
        omega
    rw [unitsAt_of_lt h, nearestIndex_one hlog i (by omega)]
    omega
  · have hlog : (unitsAt i).log2 = 52 + (i / 2 ^ 52 - 1) := by
      have hpos : 0 < 2 ^ (i / 2 ^ 52 - 1) := Nat.two_pow_pos _
      have hfraction : i % 2 ^ 52 < 2 ^ 52 := Nat.mod_lt _ (by decide)
      have hne : unitsAt i ≠ 0 := by
        rw [unitsAt_of_le h]
        exact Nat.ne_of_gt (Nat.mul_pos (by omega) hpos)
      rw [Nat.log2_eq_iff hne, unitsAt_of_le h, Nat.add_right_comm, Nat.pow_add, Nat.pow_add]
      exact ⟨Nat.mul_le_mul_right _ (by omega), Nat.mul_lt_mul_of_pos_right (by omega) hpos⟩
    rw [nearestIndex_one (s := i / 2 ^ 52 - 1) (by omega) _ (unitsAt_of_le h)]
    omega

/-! ### Written out in full -/

theorem nearestIndex_tens (u k : Nat) :
    nearestIndex (u * 5 ^ k * 2 ^ k) (10 ^ k) = nearestIndex u 1 := by
  have hten : u * 5 ^ k * 2 ^ k = u * 10 ^ k := by rw [Nat.mul_assoc, ← Nat.mul_pow]
  rw [hten, ← nearestIndex_mul u 1 (Nat.pow_pos (by decide) : 0 < 10 ^ k), Nat.one_mul]

theorem unitsAt_lt {i : Nat} (h : i < count) : unitsAt i < 2 ^ 2098 := by
  have hcount : count = 2047 * 2 ^ 52 := rfl
  rcases Nat.lt_or_ge i (2 ^ 52) with hi | hi
  · have hlarge : 2 ^ 52 < 2 ^ 2098 := Nat.pow_lt_pow_right (by decide) (by decide)
    exact (unitsAt_of_lt hi).trans_lt (hi.trans hlarge)
  · have hexponent : i / 2 ^ 52 - 1 ≤ 2045 := by omega
    have hpos : 0 < 2 ^ (i / 2 ^ 52 - 1) := Nat.two_pow_pos _
    have hsmall : unitsAt i < 2 ^ (53 + (i / 2 ^ 52 - 1)) := by
      rw [unitsAt_of_le hi, Nat.pow_add]
      exact Nat.mul_lt_mul_of_pos_right (by omega) hpos
    exact hsmall.trans_le (Nat.pow_le_pow_right (by decide) (by omega))

theorem units_eq_zero_iff {m : Magnitude} : m.units = 0 ↔ m.index = 0 := by
  constructor
  · intro h
    rw [← nearestIndex_unitsAt m.index, ← units, h]
    decide +kernel
  · intro h
    rw [units, h]
    decide +kernel

/-- **A magnitude is read back from its exact decimal number.** -/
theorem nearestIndexOfDecimal_exact (m : Magnitude) : nearestIndexOfDecimal m.exact = m.index := by
  rcases Nat.eq_zero_or_pos m.units with h | h
  · have hzero : m.exact.digits = 0 := mul_eq_zero_of_left h _
    rw [nearestIndexOfDecimal_of_digits hzero, units_eq_zero_iff.mp h]
  have hfive : 0 < 5 ^ 1074 := by decide +kernel
  have hdigits : m.units * 5 ^ 1074 ≠ 0 := Nat.ne_of_gt (Nat.mul_pos h hfive)
  have hupper : Decimal.size (m.units * 5 ^ 1074) ≤ 1383 := by
    rw [Decimal.size_le_iff (by decide)]
    calc m.units * 5 ^ 1074 < 2 ^ 2098 * 5 ^ 1074 :=
          Nat.mul_lt_mul_of_pos_right (unitsAt_lt m.isLt) hfive
      _ ≤ 10 ^ 1383 := by decide +kernel
  have hlower : 750 < Decimal.size (m.units * 5 ^ 1074) := by
    refine Nat.lt_of_not_le ?_
    intro hle
    rw [Decimal.size_le_iff (by decide)] at hle
    have hge : 5 ^ 1074 ≤ m.units * 5 ^ 1074 := Nat.le_mul_of_pos_left _ h
    exact absurd (hge.trans_lt hle) (by decide +kernel)
  have hlead : Decimal.leadingExponent m.exact = Decimal.size (m.units * 5 ^ 1074) - 1074 - 1 := rfl
  have hone : one = 2 ^ 1074 := rfl
  rw [exact] at hlead ⊢
  rw [nearestIndexOfDecimal_eq hdigits (k := 1074) (by decide) (by omega) (by omega),
    show ((-1074 : Int) + (1074 : Nat)).toNat = 0 by decide, Nat.pow_zero, Nat.mul_one,
    hone, nearestIndex_tens]
  exact nearestIndex_unitsAt m.index

/-- Every result of the search reads back. -/
theorem nearestIndexOfDecimal_of_onGrid? {m : Magnitude} {e : Int} {d : Decimal}
    (h : m.onGrid? e = some d) : nearestIndexOfDecimal d = m.index := by
  have hreads : ∀ c, m.readsBack c = true → nearestIndexOfDecimal c = m.index :=
    fun c hc => eq_of_beq hc
  simp only [onGrid?] at h
  split at h
  · next hbelow habove =>
    split_ifs at h
    · cases h
      exact hreads _ hbelow
    · cases h
      exact hreads _ habove
  · next hbelow _ =>
    cases h
    exact hreads _ hbelow
  · next _ habove =>
    cases h
    exact hreads _ habove
  · cases h

/-- **A magnitude is read back from its shortest decimal number.** -/
theorem nearestIndexOfDecimal_shortest (m : Magnitude) :
    nearestIndexOfDecimal m.shortest = m.index := by
  rw [shortest]
  cases h : (List.range 18).findSome? fun (n : Nat) => m.onGrid? (m.leadingExponent + 1 - n) with
  | none => exact nearestIndexOfDecimal_exact m
  | some d =>
    obtain ⟨n, -, hn⟩ := List.exists_of_findSome?_eq_some h
    exact nearestIndexOfDecimal_of_onGrid? hn

end Magnitude

end JsonLayout
