import JsonLayout.Proofs.Decimal
import JsonLayout.Proofs.Json
import JsonLayout.Reading.Read
import Mathlib.Data.List.TakeWhile
import Mathlib.Tactic.SplitIfs

/-!
# Scanning numbers

The scanner takes the longest literal that a text begins with.  So it takes all of a literal if what
comes after could not go on with it.

## Main definitions

* `CodePoint.isNumberPart`: the characters with which a literal might go on.
* `Text.BeginsOutside`: a text that does not begin with a character of some class.

## Main results

* `NumberLiteral.scan_append`, `NumberLiteral.exists_of_scan`: the scanner takes exactly the
  literals of the grammar.
* `NumberLiteral.value_eq_ok`, `NumberLiteral.number_of_value`: the value of a literal within the
  limit on digits is the number it writes.
-/

namespace JsonLayout

/-- A character with which a number literal might go on. -/
def CodePoint.isNumberPart (c : CodePoint) : Bool :=
  c.isDigit || c = CodePoint.ofChar '.' || c = CodePoint.ofChar 'e' || c = CodePoint.ofChar 'E'

namespace Text

/-- A text that is empty or begins with a character outside a class. -/
def BeginsOutside (p : CodePoint → Bool) (t : Text) : Prop := ∀ c ∈ t.head?, p c = false

theorem beginsOutside_nil (p : CodePoint → Bool) : BeginsOutside p [] := by
  rintro c ⟨⟩

theorem beginsOutside_cons_iff {p : CodePoint → Bool} {c : CodePoint} {t : Text} :
    BeginsOutside p (c :: t) ↔ p c = false := by
  simp [BeginsOutside]

theorem BeginsOutside.mono {p q : CodePoint → Bool} {t : Text} (h : BeginsOutside q t)
    (hpq : ∀ c, p c → q c) : BeginsOutside p t := by
  intro c hc
  by_contra hp
  have := hpq c (by simpa using hp)
  rw [h c hc] at this
  cases this

theorem beginsOutside_dropWhile (p : CodePoint → Bool) (t : Text) :
    BeginsOutside p (t.dropWhile p) := by
  intro c hc
  have hne : t.dropWhile p ≠ [] := by
    intro hnil
    rw [hnil] at hc
    cases hc
  have hhead := List.head_dropWhile_not p hne
  rwa [List.head_of_mem_head? hc] at hhead

theorem takeWhile_append_of_beginsOutside {p : CodePoint → Bool} {a b : Text} (ha : ∀ c ∈ a, p c)
    (hb : BeginsOutside p b) : (a ++ b).takeWhile p = a := by
  rw [List.takeWhile_append_of_pos ha]
  rcases b with _ | ⟨c, b⟩
  · exact List.append_nil a
  · rw [beginsOutside_cons_iff] at hb
    rw [List.takeWhile_cons_of_neg (by simp [hb]), List.append_nil]

theorem dropWhile_append_of_beginsOutside {p : CodePoint → Bool} {a b : Text} (ha : ∀ c ∈ a, p c)
    (hb : BeginsOutside p b) : (a ++ b).dropWhile p = b := by
  rw [List.dropWhile_append_of_pos ha]
  rcases b with _ | ⟨c, b⟩
  · rfl
  · rw [beginsOutside_cons_iff] at hb
    rw [List.dropWhile_cons_of_neg (by simp [hb])]

end Text

namespace NumberLiteral

open Text

variable {rest : Text}

theorem beginsOutside_isDigit (h : BeginsOutside CodePoint.isNumberPart rest) :
    BeginsOutside CodePoint.isDigit rest :=
  h.mono fun c hc => by simp [CodePoint.isNumberPart, hc]

/-! ### Taking what the grammar allows -/

theorem digits_append {ds : Text} (h : ∀ c ∈ ds, c.isDigit)
    (hr : BeginsOutside CodePoint.isDigit rest) : digits (ds ++ rest) = (ds, rest) := by
  rw [digits, takeWhile_append_of_beginsOutside h hr, dropWhile_append_of_beginsOutside h hr]

theorem scanWhole_append {w : Text} (h : w.IsWhole)
    (hr : BeginsOutside CodePoint.isDigit rest) : scanWhole (w ++ rest) = some (w, rest) := by
  obtain ⟨⟨hne, hdigits⟩, hzero⟩ := h
  obtain ⟨c, t, rfl⟩ := List.exists_cons_of_ne_nil hne
  rw [List.cons_append, scanWhole]
  split_ifs with hc hd
  · rw [hc, List.head?_cons] at hzero
    rw [(List.cons.inj (hzero rfl)).2, List.nil_append]
  · rw [← List.cons_append, digits_append hdigits hr]
  · exact absurd (hdigits c (List.mem_cons_self ..)) hd

theorem scanFraction_append {f : Text} {fraction : Option Text} (h : FractionText f fraction)
    (hr : BeginsOutside CodePoint.isDigit rest)
    (hp : BeginsOutside (· = CodePoint.ofChar '.') rest) :
    scanFraction (f ++ rest) = (fraction, rest) := by
  cases h with
  | none =>
    rw [List.nil_append]
    match rest with
    | [] => rfl
    | [c] => rfl
    | c :: d :: t =>
      rw [beginsOutside_cons_iff, decide_eq_false_iff_not] at hp
      rw [scanFraction, if_neg fun h => hp h.1]
  | @some ds digits =>
    obtain ⟨d, t, rfl⟩ := List.exists_cons_of_ne_nil digits.1
    rw [List.cons_append, List.cons_append, scanFraction,
      if_pos ⟨rfl, digits.2 d (List.mem_cons_self ..)⟩, ← List.cons_append,
      digits_append digits.2 hr]

theorem scanSign_append {s ds : Text} {negative : Bool} (h : SignText s negative)
    (hd : ds.IsDigits) : scanSign (s ++ ds ++ rest) = (negative, ds ++ rest) := by
  obtain ⟨hne, hdigits⟩ := hd
  obtain ⟨d, t, rfl⟩ := List.exists_cons_of_ne_nil hne
  have hd := hdigits d (List.mem_cons_self ..)
  cases h with
  | none =>
    have hm : d ≠ CodePoint.ofChar '-' := CodePoint.ne_of_class hd rfl
    have hp : d ≠ CodePoint.ofChar '+' := CodePoint.ne_of_class hd rfl
    rw [List.nil_append, List.cons_append, scanSign, if_neg hm, if_neg hp]
  | plus => rfl
  | minus => rfl

theorem scanExponent_append {e : Text} {exponent : Option (Bool × Text)}
    (h : ExponentText e exponent) (hr : BeginsOutside CodePoint.isNumberPart rest) :
    scanExponent (e ++ rest) = (exponent, rest) := by
  cases h with
  | none =>
    cases rest with
    | nil => rfl
    | cons c t =>
      rw [beginsOutside_cons_iff] at hr
      have hc : ¬ (c = CodePoint.ofChar 'e' ∨ c = CodePoint.ofChar 'E') := by
        rintro (rfl | rfl) <;> exact absurd hr (by decide)
      rw [List.nil_append, scanExponent, if_neg hc]
  | @some e s ds negative mark sign hd =>
    have hds : ds.isEmpty = false := by simpa using hd.1
    rw [List.cons_append, scanExponent, if_pos mark]
    simp only [scanSign_append sign hd, digits_append hd.2 (beginsOutside_isDigit hr), hds,
      Bool.false_eq_true, if_false]

/-- What comes behind a whole part does not go on with it. -/
theorem beginsOutside_fraction {f e : Text} {fraction : Option Text}
    {exponent : Option (Bool × Text)} (hf : FractionText f fraction)
    (he : ExponentText e exponent) (hr : BeginsOutside CodePoint.isNumberPart rest) :
    BeginsOutside CodePoint.isDigit (f ++ (e ++ rest)) := by
  cases hf with
  | some => exact beginsOutside_cons_iff.mpr (by decide)
  | none =>
    cases he with
    | none => exact beginsOutside_isDigit hr
    | some mark =>
      refine beginsOutside_cons_iff.mpr ?_
      rcases mark with rfl | rfl <;> decide

/-- What comes behind a fraction does not begin with a point. -/
theorem beginsOutside_exponent {e : Text} {exponent : Option (Bool × Text)}
    (he : ExponentText e exponent) (hr : BeginsOutside CodePoint.isNumberPart rest) :
    BeginsOutside (· = CodePoint.ofChar '.') (e ++ rest) := by
  cases he with
  | none => exact hr.mono fun c hc => by simp_all [CodePoint.isNumberPart]
  | some mark =>
    refine beginsOutside_cons_iff.mpr ?_
    rcases mark with rfl | rfl <;> decide

/-! ### The sign -/

/-- The literal without its sign that a text begins with, as one with a given sign. -/
def scanUnsigned (negative : Bool) (t : Text) : Option (NumberLiteral × Text) :=
  match scanWhole t with
  | none => none
  | some (whole, rest) =>
    let (fraction, rest) := scanFraction rest
    let (exponent, rest) := scanExponent rest
    some (⟨negative, whole, fraction, exponent⟩, rest)

theorem scan_minus (t : Text) : scan (CodePoint.ofChar '-' :: t) = scanUnsigned true t := rfl

theorem scan_of_beginsOutside {t : Text} (h : BeginsOutside (· = CodePoint.ofChar '-') t) :
    scan t = scanUnsigned false t := by
  cases t with
  | nil => rfl
  | cons c t =>
    rw [beginsOutside_cons_iff, decide_eq_false_iff_not] at h
    simp only [scan, h, if_false]
    rfl

/-- **The scanner takes every literal** with which the text behind it does not go on. -/
theorem scan_append {t : Text} {l : NumberLiteral} (h : LiteralText t l)
    (hr : BeginsOutside CodePoint.isNumberPart rest) : scan (t ++ rest) = some (l, rest) := by
  obtain @⟨negative, whole, f, e, fraction, exponent, hw, hf, he⟩ := h
  have hsign : scan (minusSign negative ++ (whole ++ (f ++ (e ++ rest))))
      = scanUnsigned negative (whole ++ (f ++ (e ++ rest))) := by
    cases negative with
    | true => exact scan_minus _
    | false =>
      refine scan_of_beginsOutside ?_
      obtain ⟨c, w, rfl⟩ := List.exists_cons_of_ne_nil hw.1.1
      rw [minusSign, if_neg (by decide), List.nil_append, List.cons_append,
        beginsOutside_cons_iff, decide_eq_false_iff_not]
      exact CodePoint.ne_of_class (hw.1.2 c (List.mem_cons_self ..)) rfl
  have hrest : BeginsOutside CodePoint.isDigit (e ++ rest) := beginsOutside_fraction .none he hr
  simp only [List.append_assoc, hsign, scanUnsigned]
  rw [scanWhole_append hw (beginsOutside_fraction hf he hr)]
  simp only [scanFraction_append hf hrest (beginsOutside_exponent he hr),
    scanExponent_append he hr]

/-! ### What is taken -/

theorem digits_fst_append_snd (t : Text) : (digits t).1 ++ (digits t).2 = t :=
  List.takeWhile_append_dropWhile

theorem isDigit_of_mem_digits {t : Text} : ∀ c ∈ (digits t).1, c.isDigit :=
  fun _ hc => List.mem_takeWhile_imp hc

theorem isDigits_digits {c : CodePoint} {t : Text} (h : c.isDigit) :
    Text.IsDigits (digits (c :: t)).1 := by
  refine ⟨?_, isDigit_of_mem_digits⟩
  rw [digits, List.takeWhile_cons_of_pos h]
  exact List.cons_ne_nil _ _

theorem isWhole_of_scanWhole {t w rest : Text} (h : scanWhole t = some (w, rest)) :
    w.IsWhole ∧ t = w ++ rest := by
  cases t with
  | nil => cases h
  | cons c t =>
    rw [scanWhole] at h
    split_ifs at h with hc hd
    · cases h
      subst hc
      exact ⟨⟨⟨List.cons_ne_nil _ _, by decide⟩, fun _ => rfl⟩, rfl⟩
    · have hdigits := isDigits_digits (t := t) hd
      have happend := digits_fst_append_snd (c :: t)
      rw [Option.some.inj h] at hdigits happend
      refine ⟨⟨hdigits, ?_⟩, happend.symm⟩
      intro hz
      obtain ⟨d, w', rfl⟩ := List.exists_cons_of_ne_nil hdigits.1
      exact absurd ((List.cons.inj happend).1.symm.trans (Option.some.inj hz)) hc

theorem fractionText_scanFraction (t : Text) :
    ∃ f, FractionText f (scanFraction t).1 ∧ t = f ++ (scanFraction t).2 := by
  unfold scanFraction
  split
  · next c d t =>
    split_ifs with h
    · obtain ⟨rfl, hd⟩ := h
      exact ⟨_, .some (isDigits_digits hd),
        congrArg (CodePoint.ofChar '.' :: ·) (digits_fst_append_snd (d :: t)).symm⟩
    · exact ⟨[], .none, rfl⟩
  · exact ⟨[], .none, rfl⟩

theorem signText_scanSign (t : Text) :
    ∃ s, SignText s (scanSign t).1 ∧ t = s ++ (scanSign t).2 := by
  cases t with
  | nil => exact ⟨[], .none, rfl⟩
  | cons c t =>
    rw [scanSign]
    split_ifs with hm hp
    · exact ⟨_, .minus, by rw [hm]; rfl⟩
    · exact ⟨_, .plus, by rw [hp]; rfl⟩
    · exact ⟨[], .none, rfl⟩

theorem exponentText_scanExponent (t : Text) :
    ∃ e, ExponentText e (scanExponent t).1 ∧ t = e ++ (scanExponent t).2 := by
  cases t with
  | nil => exact ⟨[], .none, rfl⟩
  | cons c t =>
    rw [scanExponent]
    split_ifs with hc
    · dsimp only
      split_ifs with hds
      · exact ⟨[], .none, rfl⟩
      · obtain ⟨s, hs, ht⟩ := signText_scanSign t
        refine ⟨_, .some hc hs ⟨by simpa using hds, isDigit_of_mem_digits⟩, ?_⟩
        rw [List.cons_append, List.append_assoc, digits_fst_append_snd, ← ht]
    · exact ⟨[], .none, rfl⟩

/-- **What the scanner takes is a literal.** -/
theorem exists_of_scan {t rest : Text} {l : NumberLiteral} (h : scan t = some (l, rest)) :
    ∃ q, LiteralText q l ∧ t = q ++ rest := by
  obtain ⟨negative, body, rfl, hscan⟩ : ∃ negative body, t = minusSign negative ++ body ∧
      scan t = scanUnsigned negative body := by
    by_cases hm : BeginsOutside (· = CodePoint.ofChar '-') t
    · exact ⟨false, t, rfl, scan_of_beginsOutside hm⟩
    · cases t with
      | nil => exact absurd (beginsOutside_nil _) hm
      | cons c t =>
        rw [beginsOutside_cons_iff, decide_eq_false_iff_not, not_not] at hm
        exact ⟨true, t, by rw [hm]; rfl, by rw [hm, scan_minus]⟩
  rw [hscan, scanUnsigned] at h
  cases hw : scanWhole body with
  | none =>
    rw [hw] at h
    cases h
  | some p =>
    obtain ⟨whole, tail⟩ := p
    simp only [hw, Option.some.injEq, Prod.mk.injEq] at h
    obtain ⟨rfl, rfl⟩ := h
    obtain ⟨hwhole, rfl⟩ := isWhole_of_scanWhole hw
    obtain ⟨f, hf, ht⟩ := fractionText_scanFraction tail
    obtain ⟨e, he, ht'⟩ := exponentText_scanExponent (scanFraction tail).2
    refine ⟨_, ⟨hwhole, hf, he⟩, ?_⟩
    simp only [List.append_assoc]
    rw [← ht', ← ht]

/-! ### Values -/

/-- The digits of an integer literal are within the limit if and only if its number is. -/
theorem length_whole_le_iff {t : Text} {l : NumberLiteral} (h : LiteralText t l)
    (hi : l.isInteger) : l.whole.length ≤ Decimal.digitLimit ↔ l.number.WithinDigitLimit := by
  have hw : l.whole.IsWhole := by
    cases h
    assumption
  rw [Decimal.length_le_iff hw (by decide), number, if_pos hi, Number.WithinDigitLimit]
  split_ifs <;> simp

theorem value_eq_ok {t : Text} {l : NumberLiteral} (h : LiteralText t l)
    (hn : l.number.WithinDigitLimit) : l.value = .ok l.number := by
  by_cases hi : l.isInteger
  · rw [value, if_pos hi, if_pos ((length_whole_le_iff h hi).mpr hn), number, if_pos hi]
  · rw [value, if_neg hi, number, if_neg hi]

theorem number_of_value {t : Text} {l : NumberLiteral} {n : Number} (h : LiteralText t l)
    (hv : l.value = .ok n) : n = l.number ∧ n.WithinDigitLimit := by
  by_cases hi : l.isInteger
  · by_cases hl : l.whole.length ≤ Decimal.digitLimit
    · rw [value, if_pos hi, if_pos hl] at hv
      have hn : l.number = n := by
        rw [number, if_pos hi]
        exact Except.ok.inj hv
      exact ⟨hn.symm, hn ▸ (length_whole_le_iff h hi).mp hl⟩
    · rw [value, if_pos hi, if_neg hl] at hv
      cases hv
  · rw [value, if_neg hi] at hv
    cases hv
    rw [number, if_neg hi]
    exact ⟨rfl, trivial⟩

end NumberLiteral

end JsonLayout
