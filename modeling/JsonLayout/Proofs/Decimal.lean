import JsonLayout.Proofs.Grammar
import Mathlib.Tactic.Ring

/-!
# Decimal texts of whole numbers

## Main results

* `Decimal.toNat_append`, `Decimal.toNat_lt`: what digits write, by place value.
* `Decimal.length_le_iff`: a whole number without leading zeros has at most `k` digits if and only
  if it is below `10 ^ k`.
* `Decimal.toNat_ofNat`, `Decimal.isWhole_ofNat`: a number is read back from its decimal text, which
  has no leading zero.
* `Decimal.size_mul_pow`: a factor of ten is one more digit.
-/

namespace JsonLayout

namespace Decimal

/-! ### Place value -/

private theorem foldl_digits (t : Text) (n : Nat) :
    t.foldl (fun n c => 10 * n + c.digitValue) n = n * 10 ^ t.length + toNat t := by
  unfold toNat
  induction t generalizing n with
  | nil => simp
  | cons c t ih =>
    rw [List.foldl_cons, List.foldl_cons, ih, ih (10 * 0 + _), List.length_cons]
    ring

theorem toNat_append (s t : Text) : toNat (s ++ t) = toNat s * 10 ^ t.length + toNat t := by
  rw [toNat, List.foldl_append, foldl_digits]
  rfl

theorem toNat_cons (c : CodePoint) (t : Text) :
    toNat (c :: t) = c.digitValue * 10 ^ t.length + toNat t := by
  rw [← List.singleton_append, toNat_append]
  simp [toNat]

theorem toNat_replicate_zero_append (k : Nat) (t : Text) :
    toNat (List.replicate k (CodePoint.ofChar '0') ++ t) = toNat t := by
  induction k with
  | zero => rfl
  | succ k ih =>
    rw [List.replicate_succ, List.cons_append, toNat_cons, ih,
      show (CodePoint.ofChar '0').digitValue = 0 from rfl, Nat.zero_mul, Nat.zero_add]

theorem toNat_append_replicate_zero (k : Nat) (t : Text) :
    toNat (t ++ List.replicate k (CodePoint.ofChar '0')) = toNat t * 10 ^ k := by
  rw [toNat_append, ← List.append_nil (List.replicate k _), toNat_replicate_zero_append]
  simp [toNat]

theorem digitValue_lt {c : CodePoint} (h : c.isDigit) : c.digitValue < 10 := by
  simp only [CodePoint.isDigit, Bool.and_eq_true, decide_eq_true_eq] at h
  rw [CodePoint.digitValue]
  omega

theorem toNat_lt {t : Text} (h : ∀ c ∈ t, c.isDigit) : toNat t < 10 ^ t.length := by
  induction t with
  | nil => simp [toNat]
  | cons c t ih =>
    rw [List.forall_mem_cons] at h
    have hc : c.digitValue + 1 ≤ 10 := digitValue_lt h.1
    calc toNat (c :: t) = c.digitValue * 10 ^ t.length + toNat t := toNat_cons c t
      _ < c.digitValue * 10 ^ t.length + 10 ^ t.length := Nat.add_lt_add_left (ih h.2) _
      _ = (c.digitValue + 1) * 10 ^ t.length := by ring
      _ ≤ 10 * 10 ^ t.length := Nat.mul_le_mul_right _ hc
      _ = 10 ^ (c :: t).length := by rw [List.length_cons, Nat.pow_succ']

/-- Without leading zeros the first digit counts at least one. -/
theorem pow_le_toNat {c : CodePoint} {t : Text} (h : Text.IsWhole (c :: t)) (ht : t ≠ []) :
    10 ^ t.length ≤ toNat (c :: t) := by
  obtain ⟨⟨-, hdigits⟩, hzero⟩ := h
  have hc : c ≠ CodePoint.ofChar '0' := by
    rintro rfl
    exact ht (List.cons.inj (hzero rfl)).2
  have hd := hdigits c (List.mem_cons_self ..)
  have hpos : 1 ≤ c.digitValue := by
    simp only [CodePoint.isDigit, Bool.and_eq_true, decide_eq_true_eq] at hd
    rw [CodePoint.digitValue]
    have : c.val ≠ 0x30 := fun hv => hc (by cases c; cases hv; rfl)
    omega
  rw [toNat_cons]
  calc 10 ^ t.length = 1 * 10 ^ t.length := (Nat.one_mul _).symm
    _ ≤ c.digitValue * 10 ^ t.length := Nat.mul_le_mul_right _ hpos
    _ ≤ _ := Nat.le_add_right _ _

/-- **Digits count magnitude.** -/
theorem length_le_iff {t : Text} (h : t.IsWhole) {k : Nat} (hk : 0 < k) :
    t.length ≤ k ↔ toNat t < 10 ^ k := by
  constructor
  · intro hle
    exact Nat.lt_of_lt_of_le (toNat_lt h.1.2) (Nat.pow_le_pow_right (by omega) hle)
  · intro hlt
    match t, h with
    | [], _ => exact Nat.zero_le k
    | [_], _ => exact hk
    | c :: d :: t, h =>
      have hpow := Nat.lt_of_le_of_lt (pow_le_toNat h (List.cons_ne_nil d t)) hlt
      exact (Nat.pow_lt_pow_iff_right (by omega)).mp hpow

/-! ### The text of a number -/

theorem isDigit_digit (n : Nat) : (digit n).isDigit := by
  have hv : (digit n).val = 0x30 + n % 10 := rfl
  simp only [CodePoint.isDigit, hv, Bool.and_eq_true, decide_eq_true_eq]
  omega

theorem digitValue_digit (n : Nat) : (digit n).digitValue = n % 10 := by
  have hv : (digit n).val = 0x30 + n % 10 := rfl
  rw [CodePoint.digitValue, hv]
  omega

private theorem ofNatOnto_append (n : Nat) (s t : Text) :
    ofNatOnto n (s ++ t) = ofNatOnto n s ++ t := by
  fun_induction ofNatOnto n s with
  | case1 n s h => rw [ofNatOnto, if_pos h, List.cons_append]
  | case2 n s h ih => rw [ofNatOnto, if_neg h, ← List.cons_append, ih]

theorem ofNat_of_lt {n : Nat} (h : n < 10) : ofNat n = [digit n] := by
  rw [ofNat, ofNatOnto, if_pos h]

theorem ofNat_of_le {n : Nat} (h : 10 ≤ n) : ofNat n = ofNat (n / 10) ++ [digit n] := by
  rw [ofNat, ofNatOnto, if_neg (by omega), ← List.nil_append [digit n], ofNatOnto_append]
  rfl

/-- **A number is read back from its decimal text.** -/
@[simp] theorem toNat_ofNat (n : Nat) : toNat (ofNat n) = n := by
  induction n using Nat.strongRecOn with
  | ind n ih =>
    rcases Nat.lt_or_ge n 10 with h | h
    · rw [ofNat_of_lt h, toNat_cons, digitValue_digit]
      simp [toNat]
      omega
    · rw [ofNat_of_le h, toNat_append, ih (n / 10) (by omega), toNat_cons, digitValue_digit]
      simp [toNat]
      omega

theorem isDigits_ofNat (n : Nat) : (ofNat n).IsDigits := by
  induction n using Nat.strongRecOn with
  | ind n ih =>
    rcases Nat.lt_or_ge n 10 with h | h
    · rw [ofNat_of_lt h]
      exact ⟨List.cons_ne_nil _ _, List.forall_mem_singleton.mpr (isDigit_digit n)⟩
    · rw [ofNat_of_le h]
      refine ⟨List.append_ne_nil_of_right_ne_nil _ (List.cons_ne_nil _ _), ?_⟩
      rw [List.forall_mem_append, List.forall_mem_singleton]
      exact ⟨(ih (n / 10) (by omega)).2, isDigit_digit n⟩

/-- Only zero has a text that begins with one. -/
theorem head?_ofNat (n : Nat) (h : (ofNat n).head? = some (CodePoint.ofChar '0')) : n = 0 := by
  induction n using Nat.strongRecOn with
  | ind n ih =>
    rcases Nat.lt_or_ge n 10 with hn | hn
    · rw [ofNat_of_lt hn, List.head?_cons, Option.some.injEq] at h
      have hv : 0x30 + n % 10 = 0x30 := congrArg CodePoint.val h
      omega
    · obtain ⟨c, t, ht⟩ := List.exists_cons_of_ne_nil (isDigits_ofNat (n / 10)).1
      rw [ofNat_of_le hn, ht, List.cons_append, List.head?_cons] at h
      have := ih (n / 10) (by omega) (by rw [ht, List.head?_cons, h])
      omega

theorem isWhole_ofNat (n : Nat) : (ofNat n).IsWhole := by
  refine ⟨isDigits_ofNat n, ?_⟩
  intro h
  rw [head?_ofNat n h]
  exact ofNat_of_lt (by omega)

/-! ### The number of digits -/

theorem size_pos (n : Nat) : 0 < size n := List.length_pos_iff.mpr (isDigits_ofNat n).1

/-- **A number has at most `k` digits if and only if it is below `10 ^ k`.** -/
theorem size_le_iff {n k : Nat} (hk : 0 < k) : size n ≤ k ↔ n < 10 ^ k := by
  rw [size, length_le_iff (isWhole_ofNat n) hk, toNat_ofNat]

theorem size_mul_pow {n : Nat} (hn : 0 < n) (k : Nat) : size (n * 10 ^ k) = size n + k := by
  have hs := size_pos n
  have hlt : n < 10 ^ size n := (size_le_iff hs).mp le_rfl
  have hle : size n = 1 ∨ 10 ^ (size n - 1) ≤ n := by
    rcases Nat.eq_or_lt_of_le hs with h | h
    · exact .inl h.symm
    · refine .inr (Nat.le_of_not_lt ?_)
      intro hlt
      have := (size_le_iff (by omega)).mpr hlt
      omega
  have hpos : 0 < 10 ^ k := Nat.pow_pos (by omega)
  apply Nat.le_antisymm
  · rw [size_le_iff (by omega), Nat.pow_add]
    exact Nat.mul_lt_mul_of_pos_right hlt hpos
  · refine Nat.le_of_not_lt ?_
    intro hlt'
    have hk : 0 < size n + k - 1 := by
      have := size_pos (n * 10 ^ k)
      omega
    have hsmall := (size_le_iff hk).mp (by omega : size (n * 10 ^ k) ≤ size n + k - 1)
    rw [show size n + k - 1 = (size n - 1) + k by omega, Nat.pow_add] at hsmall
    have hn' : n < 10 ^ (size n - 1) := Nat.lt_of_mul_lt_mul_right hsmall
    rcases hle with h | h
    · rw [h] at hn'
      omega
    · omega

end Decimal

end JsonLayout
