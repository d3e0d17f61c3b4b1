import JsonLayout.Proofs.Files.Store
import JsonLayout.Proofs.Text.Lines
import Mathlib.Control.Monad.Basic

/-!
# Texts that have no bytes

Not every text can be a path, and not every text can be written to a file.  Both are settled by
single characters: a null character, or a surrogate that stands alone.  In a path some surrogates
stand for bytes.

## Main definitions

* `Text.IsNoPath`: texts that no path can be.

## Main results

* `exists_pathBytes_eq_error_iff`: the texts that have no bytes as paths.
* `exists_contentBytes_eq_error_iff`: the texts that cannot be written to a file.
-/

namespace JsonLayout

/-! ### Paths -/

/-- A text with a null character, or with a surrogate that does not stand for a byte. -/
def Text.IsNoPath (t : Text) : Prop :=
  ∃ c ∈ t, c.val = 0 ∨ (c.isSurrogate = true ∧ Utf8.isRawByte c = false)

namespace Utf8

theorem encodePath_eq_error_iff {t : Text} (offset : Nat) :
    (∃ run, encodePath offset t = .error run) ↔
      ∃ c ∈ t, c.isSurrogate = true ∧ isRawByte c = false := by
  induction t generalizing offset with
  | nil => simp [encodePath]
  | cons c t ih =>
    have hmap : ∀ f : Bytes → Bytes, (∃ run, (encodePath (offset + 1) t).map f = .error run) ↔
        ∃ c ∈ t, c.isSurrogate = true ∧ isRawByte c = false := by
      intro f
      rw [← ih (offset + 1)]
      cases encodePath (offset + 1) t <;> simp [Except.map]
    rw [encodePath, List.exists_mem_cons_iff]
    split_ifs with hraw hsurrogate
    · rw [hmap]
      simp [hraw]
    · simp [hraw, hsurrogate]
    · rw [hmap]
      simp [hsurrogate]

theorem zero_mem_encodePoint_iff {c : CodePoint} : 0 ∈ encodePoint c ↔ c.val = 0 := by
  constructor
  · intro h
    by_contra hc
    exact zero_not_mem_encodePoint hc h
  · intro h
    rw [encodePoint, h]
    decide

theorem zero_mem_encodePath_iff {t : Text} {offset : Nat} {bytes : Bytes}
    (h : encodePath offset t = .ok bytes) : 0 ∈ bytes ↔ ∃ c ∈ t, c.val = 0 := by
  induction t generalizing offset bytes with
  | nil =>
    cases h
    simp
  | cons c t ih =>
    rw [encodePath] at h
    rw [List.exists_mem_cons_iff]
    cases hrest : encodePath (offset + 1) t with
    | error run =>
      rw [hrest] at h
      split_ifs at h <;> cases h
    | ok rest =>
      rw [hrest] at h
      split_ifs at h with hraw hsurrogate <;> cases h
      · -- a raw byte is one from 0x80 on
        simp only [isRawByte, Bool.and_eq_true, decide_eq_true_eq] at hraw
        have hbyte : (0 : UInt8) ≠ .ofNat (c.val - 0xDC00) := by
          intro heq
          have hnat := congrArg UInt8.toNat heq
          rw [UInt8.toNat_ofNat', Nat.mod_eq_of_lt (by omega)] at hnat
          change 0 = _ at hnat
          omega
        have hc : c.val ≠ 0 := by omega
        rw [List.mem_cons, or_iff_right hbyte, or_iff_right hc, ih hrest]
      · rw [List.mem_append, zero_mem_encodePoint_iff, ih hrest]

end Utf8

/-- **The texts that have no bytes** as paths. -/
theorem exists_pathBytes_eq_error_iff {path : Text} :
    (∃ crash, pathBytes path = .error crash) ↔ path.IsNoPath := by
  have hpath : path.IsNoPath ↔ (∃ c ∈ path, c.val = 0) ∨
      ∃ c ∈ path, c.isSurrogate = true ∧ Utf8.isRawByte c = false := by
    simp only [Text.IsNoPath, and_or_left, exists_or]
  rw [hpath, ← Utf8.encodePath_eq_error_iff 0, pathBytes]
  cases hbytes : Utf8.encodePath 0 path with
  | error run => simp
  | ok bytes =>
    rw [← Utf8.zero_mem_encodePath_iff hbytes]
    dsimp only
    split <;> simp_all

/-! ### Contents -/

/-- The contents that have no bytes, with a line feed at the end. -/
theorem exists_contentBytes_eq_error_iff {t : Text} :
    (∃ crash, contentBytes t.withFinalLineFeed = .error crash) ↔ ∃ c ∈ t, c.isSurrogate = true := by
  have hclean : (∀ c ∈ t.withFinalLineFeed, c.isSurrogate = false) ↔
      ¬ ∃ c ∈ t, c.isSurrogate = true := by
    simp [Text.mem_withFinalLineFeed_iff, or_imp, forall_and,
      (by decide : CodePoint.lineFeed.isSurrogate = false)]
  cases hcontent : contentBytes t.withFinalLineFeed with
  | ok content =>
    exact iff_of_false nofun (hclean.mp (contentBytes_eq_ok_iff.mp hcontent).1)
  | error crash =>
    refine iff_of_true ⟨crash, rfl⟩ ?_
    by_contra hnone
    rw [contentBytes_eq_ok_iff.mpr ⟨hclean.mpr hnone, rfl⟩] at hcontent
    cases hcontent

end JsonLayout
