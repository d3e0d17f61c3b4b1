import JsonLayout.Proofs.Grammar
import JsonLayout.Reading.Read
import Mathlib.Tactic.SplitIfs

/-!
# Scanning strings

The scanner keeps the units it has read, latest first, and joins a low surrogate to the one before
it as it comes.  That gives the same text as joining the pairs of the whole sequence from the left.

## Main results

* `StringUnit.scan_append`, `StringUnit.exists_of_scan`: the scanner takes exactly the bodies of the
  grammar.
* `StringText.scan`, `StringText.of_scan`: the same for strings between quotes.
-/

namespace JsonLayout

namespace StringUnit

/-! ### Escapes -/

theorem ofLetter?_eq_some_iff {e p : CodePoint} :
    ofLetter? e = some p ↔ (e, p) ∈ escapeLetters := by
  simp only [ofLetter?, escapeLetters, List.mem_cons, Prod.mk.injEq, List.not_mem_nil, or_false]
  constructor
  · intro h
    split at h
    · next he =>
      cases h
      rcases he with rfl | rfl | rfl <;> simp
    · split_ifs at h <;> cases h <;> simp_all
  · rintro (⟨rfl, rfl⟩ | ⟨rfl, rfl⟩ | ⟨rfl, rfl⟩ | ⟨rfl, rfl⟩ | ⟨rfl, rfl⟩ | ⟨rfl, rfl⟩ |
      ⟨rfl, rfl⟩ | ⟨rfl, rfl⟩) <;> rfl

theorem ofHex?_eq_some_iff {a b c d p : CodePoint} :
    ofHex? a b c d = some p ↔ ∃ w x y z, a.hexValue? = some w ∧ b.hexValue? = some x ∧
      c.hexValue? = some y ∧ d.hexValue? = some z ∧
      p.val = w * 0x1000 + x * 0x100 + y * 0x10 + z := by
  unfold ofHex?
  split
  · next w x y z ha hb hc hd =>
    simp only [ha, hb, hc, hd, CodePoint.ofNat?]
    constructor
    · intro h
      split at h
      · cases h
        exact ⟨w, x, y, z, rfl, rfl, rfl, rfl, rfl⟩
      · cases h
    · rintro ⟨w', x', y', z', hw, hx, hy, hz, h⟩
      cases hw
      cases hx
      cases hy
      cases hz
      have hlt := p.isLt
      rw [h] at hlt
      rw [dif_pos hlt]
      exact congrArg some (by cases p; simp_all)
  · next hnone =>
    constructor
    · intro h
      cases h
    · rintro ⟨w, x, y, z, ha, hb, hc, hd, -⟩
      exact (hnone w x y z ha hb hc hd).elim

/-! ### Joining -/

/-- What is kept after some more units: each is pushed, the first one first. -/
def pushAll (done us : List StringUnit) : List StringUnit := us.foldl (fun d u => u.push d) done

@[simp] theorem pushAll_nil (done : List StringUnit) : pushAll done [] = done := rfl

@[simp] theorem pushAll_cons (done us : List StringUnit) (u : StringUnit) :
    pushAll done (u :: us) = pushAll (u.push done) us := rfl

/-- A unit that no numbered escape wrote has no part in a pair. -/
theorem joined_cons_plain (p : CodePoint) (us : List StringUnit) :
    joined (⟨p, false⟩ :: us) = p :: joined us := by
  cases us with
  | nil => rfl
  | cons v us => rfl

/-- The last unit kept may still be the first half of a pair; those before it are settled. -/
theorem map_point_pushAll_cons (us done : List StringUnit) (v : StringUnit) :
    (pushAll (v :: done) us).reverse.map point
      = done.reverse.map point ++ joined (v :: us) := by
  induction us generalizing v done with
  | nil => simp [joined]
  | cons u us ih =>
    rw [pushAll_cons, push, joined, isPair]
    split
    · next h =>
      rw [ih, joined_cons_plain]
      simp [h]
    · next h =>
      rw [ih, if_neg (by simpa [and_assoc] using h)]
      simp

/-- **Joining as units come** gives the text of the whole sequence. -/
theorem map_point_pushAll (us : List StringUnit) :
    (pushAll [] us).reverse.map point = joined us := by
  cases us with
  | nil => rfl
  | cons u us => simpa [push] using map_point_pushAll_cons us [] u

/-! ### Bodies -/

section Steps

variable (done : List StringUnit) (t : Text)

theorem scan_quote : scan done (CodePoint.ofChar '"' :: t) = .ok (done.reverse.map point, t) := by
  rw [scan.eq_def]
  exact if_pos rfl

theorem scan_plain {c : CodePoint} (control : 0x20 ≤ c.val) (quote : c ≠ CodePoint.ofChar '"')
    (backslash : c ≠ CodePoint.ofChar '\\') :
    scan done (c :: t) = scan (push ⟨c, false⟩ done) t := by
  have hc : c.isControl = false := by simpa [CodePoint.isControl] using control
  rw [scan.eq_def]
  simp only [quote, backslash, hc, if_false, Bool.false_eq_true]

theorem scan_letter {e p : CodePoint} (letter : (e, p) ∈ escapeLetters) :
    scan done (CodePoint.ofChar '\\' :: e :: t) = scan (push ⟨p, false⟩ done) t := by
  have hu : e ≠ CodePoint.ofChar 'u' := by
    rintro rfl
    simp [escapeLetters, CodePoint.ofChar] at letter
  rw [scan.eq_def]
  simp only [show CodePoint.ofChar '\\' ≠ CodePoint.ofChar '"' by decide, hu, if_false, if_true,
    ofLetter?_eq_some_iff.mpr letter]

theorem scan_numbered {a b c d p : CodePoint} (hp : ofHex? a b c d = some p) (ht : t ≠ []) :
    scan done (CodePoint.ofChar '\\' :: CodePoint.ofChar 'u' :: a :: b :: c :: d :: t)
      = scan (push ⟨p, true⟩ done) t := by
  rw [scan.eq_def]
  simp only [show CodePoint.ofChar '\\' ≠ CodePoint.ofChar '"' by decide, if_false, if_true, hp,
    List.isEmpty_iff, ht]

end Steps

/-- **The scanner takes every body** up to the quote that closes it. -/
theorem scan_append {b : Text} {us : List StringUnit} (h : UnitsText b us)
    (done : List StringUnit) (rest : Text) :
    scan done (b ++ CodePoint.ofChar '"' :: rest)
      = .ok ((pushAll done us).reverse.map point, rest) := by
  induction h generalizing done with
  | nil => exact scan_quote done rest
  | plain control quote backslash _ ih =>
    rw [List.cons_append, scan_plain _ _ control quote backslash, ih, pushAll_cons]
  | letter letter _ ih =>
    rw [List.cons_append, List.cons_append, scan_letter _ _ letter, ih, pushAll_cons]
  | @numbered a b c d p w x y z t us ha hb hc hd number _ ih =>
    have hp : ofHex? a b c d = some p :=
      ofHex?_eq_some_iff.mpr ⟨w, x, y, z, ha, hb, hc, hd, number⟩
    simp only [List.cons_append]
    rw [scan_numbered _ _ hp (by simp), ih, pushAll_cons]

/-- **What the scanner takes is a body**, closed by a quote. -/
theorem exists_of_scan {t s rest : Text} {done : List StringUnit}
    (h : scan done t = .ok (s, rest)) :
    ∃ b us, UnitsText b us ∧ t = b ++ CodePoint.ofChar '"' :: rest ∧
      s = (pushAll done us).reverse.map point := by
  fun_induction scan done t with
  | case2 done t =>
    cases h
    exact ⟨[], [], .nil, rfl, rfl⟩
  | case5 done h₁ h₂ h₃ h₄ t n hn _ _ ih =>
    obtain ⟨b, us, hb, rfl, hs⟩ := ih h
    obtain ⟨w, x, y, z, h₁', h₂', h₃', h₄', number⟩ := ofHex?_eq_some_iff.mp hn
    exact ⟨_, _, .numbered h₁' h₂' h₃' h₄' number hb, rfl, hs⟩
  | case8 done e t _ p hp _ ih =>
    obtain ⟨b, us, hb, rfl, hs⟩ := ih h
    exact ⟨_, _, .letter (ofLetter?_eq_some_iff.mp hp) hb, rfl, hs⟩
  | case11 done c t quote backslash control ih =>
    obtain ⟨b, us, hb, rfl, hs⟩ := ih h
    have hc : 0x20 ≤ c.val := by simpa [CodePoint.isControl] using control
    exact ⟨_, _, .plain hc quote backslash hb, rfl, hs⟩
  | _ => cases h

end StringUnit

/-! ### Strings between quotes -/

theorem StringText.scan {t s : Text} (h : StringText t s) (rest : Text) :
    ∃ body, t ++ rest = CodePoint.ofChar '"' :: body ∧ StringUnit.scan [] body = .ok (s, rest) := by
  obtain ⟨hb⟩ := h
  refine ⟨_, by simp; rfl, ?_⟩
  rw [StringUnit.scan_append hb, StringUnit.map_point_pushAll]

theorem StringText.of_scan {t s rest : Text} (h : StringUnit.scan [] t = .ok (s, rest)) :
    ∃ q, StringText q s ∧ CodePoint.ofChar '"' :: t = q ++ rest := by
  obtain ⟨b, us, hb, rfl, rfl⟩ := StringUnit.exists_of_scan h
  rw [StringUnit.map_point_pushAll]
  exact ⟨_, ⟨hb⟩, by simp⟩

end JsonLayout
