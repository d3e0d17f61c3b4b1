import JsonLayout.Datum.Equality
import JsonLayout.Layout.Scalar
import JsonLayout.Proofs.Double.Rounding
import JsonLayout.Proofs.Json

/-!
# Numbers as they are written

What is written for a number derives from the grammar, and the number it derives is equal to the one
written.  It need not be the same one: a double that is a small whole number is written as an
integer.

## Main definitions

* `Number.text`, `Number.Writable`: the text of a number, and whether the options allow it.
* `Number.asWritten`: the number that is read back.

## Main results

* `Decimal.isLiteral_text`: the text of a decimal number is a literal of that number.
* `Number.numberText_text`: the text of a number derives the number as it is written.
* `Number.text_asWritten`, `Number.same_asWritten`: which has the same text, and is equal to it.
-/

namespace JsonLayout

/-! ### Literals of decimal numbers -/

theorem LiteralText.of_parts {t whole f e : Text} {fraction : Option Text}
    {exponent : Option (Bool × Text)} (negative : Bool) (ht : t = whole ++ f ++ e)
    (hw : whole.IsWhole) (hf : FractionText f fraction) (he : ExponentText e exponent) :
    LiteralText (minusSign negative ++ t) ⟨negative, whole, fraction, exponent⟩ := by
  have h : LiteralText (minusSign negative ++ whole ++ f ++ e)
      ⟨negative, whole, fraction, exponent⟩ := ⟨hw, hf, he⟩
  rwa [List.append_assoc, List.append_assoc, ← List.append_assoc whole, ← ht] at h

theorem Text.IsDigits.append {s t : Text} (hs : s.IsDigits) (ht : ∀ c ∈ t, c.isDigit) :
    Text.IsDigits (s ++ t) :=
  ⟨List.append_ne_nil_of_left_ne_nil hs.1 t, List.forall_mem_append.mpr ⟨hs.2, ht⟩⟩

namespace Decimal

theorem isDigit_of_mem_zeros {k : Nat} :
    ∀ c ∈ List.replicate k (CodePoint.ofChar '0'), c.isDigit := by
  intro c hc
  rw [List.eq_of_mem_replicate hc]
  rfl

/-- Digits that go on with those of a number other than zero have no leading zero. -/
theorem isWhole_of_head {n : Nat} (hn : 0 < n) {t : Text} (ht : t.IsDigits)
    (hhead : t.head? = (ofNat n).head?) : t.IsWhole := by
  refine ⟨ht, ?_⟩
  intro hz
  rw [hhead] at hz
  exact absurd (head?_ofNat n hz) (Nat.ne_of_gt hn)

/-- The text of a power of ten derives that power. -/
theorem exponentText_exponentText (e : Int) :
    ∃ ds, ExponentText (exponentText e) (some (decide (e < 0), ds)) ∧ toNat ds = e.natAbs := by
  let padding : Text := List.replicate (2 - (ofNat e.natAbs).length) (CodePoint.ofChar '0')
  have hdigits : Text.IsDigits (padding ++ ofNat e.natAbs) :=
    ⟨List.append_ne_nil_of_right_ne_nil _ (isDigits_ofNat _).1,
      List.forall_mem_append.mpr ⟨isDigit_of_mem_zeros, (isDigits_ofNat _).2⟩⟩
  refine ⟨padding ++ ofNat e.natAbs, ?_, ?_⟩
  · rw [exponentText]
    by_cases he : e < 0
    · rw [decide_eq_true he, if_pos he]
      exact .some (.inl rfl) .minus hdigits
    · rw [decide_eq_false he, if_neg he]
      exact .some (.inl rfl) .plus hdigits
  · rw [toNat_replicate_zero_append, toNat_ofNat]

/-- The power of ten of a literal, from its sign and its digits. -/
theorem signed_natAbs (e : Int) {n : Nat} (hn : n = e.natAbs) :
    (if decide (e < 0) then -(n : Int) else n) = e := by
  by_cases he : e < 0
  · rw [decide_eq_true he, if_pos rfl]
    omega
  · rw [decide_eq_false he, if_neg (by decide)]
    omega

theorem isWhole_zero : Text.IsWhole [CodePoint.ofChar '0'] :=
  ⟨⟨List.cons_ne_nil _ _, by decide⟩, fun _ => rfl⟩

/-- A literal, not of an integer, that writes a decimal number with some zeros behind its digits. -/
def IsLiteral (d : Decimal) (negative : Bool) (t : Text) : Prop :=
  ∃ l : NumberLiteral, LiteralText (minusSign negative ++ t) l ∧ l.isInteger = false ∧
    l.negative = negative ∧ ∃ k : Nat, l.decimal = ⟨d.digits * 10 ^ k, d.exponent - k⟩

variable {d : Decimal} (negative : Bool)

/-- A decimal number in positional writing. -/
theorem isLiteral_positionalText (hd : 0 < d.digits) :
    IsLiteral d negative (positionalText (ofNat d.digits) d.leadingExponent) := by
  have hlen : (ofNat d.digits).length = size d.digits := rfl
  have hlead : d.leadingExponent = size d.digits + d.exponent - 1 := rfl
  have hdigits := isDigits_ofNat d.digits
  simp only [positionalText]
  split_ifs with hneg hle
  · -- below one: zeros between the point and the digits
    let zeros : Text := List.replicate (-d.leadingExponent - 1).toNat (CodePoint.ofChar '0')
    have hzeros : zeros.length = (-d.leadingExponent - 1).toNat := List.length_replicate
    have hfraction : Text.IsDigits (zeros ++ ofNat d.digits) :=
      ⟨List.append_ne_nil_of_right_ne_nil _ hdigits.1,
        List.forall_mem_append.mpr ⟨isDigit_of_mem_zeros, hdigits.2⟩⟩
    refine ⟨_, .of_parts negative ?_ isWhole_zero (.some hfraction) .none, rfl, rfl, 0, ?_⟩
    · simp [zeros, Text.ofString]
    · refine congrArg₂ Decimal.mk ?_ ?_
      · rw [Option.getD_some, ← List.append_assoc, ← List.replicate_one,
          List.replicate_append_replicate, toNat_replicate_zero_append, toNat_ofNat, Nat.pow_zero,
          Nat.mul_one]
      · dsimp only
        rw [Option.getD_some, List.length_append, hzeros, hlen]
        omega
  · -- a whole number: zeros between the digits and the point
    let zeros : Text :=
      List.replicate (d.leadingExponent.toNat + 1 - (ofNat d.digits).length) (CodePoint.ofChar '0')
    have hzeros : zeros.length = d.leadingExponent.toNat + 1 - size d.digits :=
      List.length_replicate
    have hwhole : Text.IsWhole (ofNat d.digits ++ zeros) := by
      refine isWhole_of_head hd (hdigits.append isDigit_of_mem_zeros) ?_
      obtain ⟨c, t, h⟩ := List.exists_cons_of_ne_nil hdigits.1
      rw [h]
      rfl
    refine ⟨_, .of_parts negative ?_ hwhole (.some isWhole_zero.1) .none, rfl, rfl,
      zeros.length + 1, ?_⟩
    · simp [zeros, Text.ofString]
    · refine congrArg₂ Decimal.mk ?_ ?_
      · rw [Option.getD_some, List.append_assoc, ← List.replicate_one,
          List.replicate_append_replicate, toNat_append_replicate_zero, toNat_ofNat, hzeros, hlen]
      · dsimp only
        rw [Option.getD_some, List.length_singleton, hzeros]
        omega
  · -- the point among the digits
    have hsplit := List.take_append_drop (d.leadingExponent.toNat + 1) (ofNat d.digits)
    have hwhole : Text.IsWhole ((ofNat d.digits).take (d.leadingExponent.toNat + 1)) := by
      refine isWhole_of_head hd ⟨?_, fun c hc => hdigits.2 c (List.mem_of_mem_take hc)⟩ ?_
      · rw [Ne, List.take_eq_nil_iff]
        exact fun h => h.elim (Nat.succ_ne_zero _) hdigits.1
      · rw [List.head?_take, if_neg (Nat.succ_ne_zero _)]
    have hfraction : Text.IsDigits ((ofNat d.digits).drop (d.leadingExponent.toNat + 1)) := by
      refine ⟨?_, fun c hc => hdigits.2 c (List.mem_of_mem_drop hc)⟩
      rw [Ne, List.drop_eq_nil_iff]
      exact hle
    refine ⟨_, .of_parts negative ?_ hwhole (.some hfraction) .none, rfl, rfl, 0, ?_⟩
    · simp
    · refine congrArg₂ Decimal.mk ?_ ?_
      · rw [Option.getD_some, hsplit, toNat_ofNat, Nat.pow_zero, Nat.mul_one]
      · dsimp only
        rw [Option.getD_some, List.length_drop, hlen]
        omega

/-- A decimal number in scientific writing. -/
theorem isLiteral_scientificText (hd : 0 < d.digits) :
    IsLiteral d negative (scientificText (ofNat d.digits) d.leadingExponent) := by
  obtain ⟨ds, hexponent, hds⟩ := exponentText_exponentText d.leadingExponent
  have hlen : (ofNat d.digits).length = size d.digits := rfl
  have hlead : d.leadingExponent = size d.digits + d.exponent - 1 := rfl
  have hpower := signed_natAbs d.leadingExponent hds
  have hdigits := isDigits_ofNat d.digits
  have hvalue := toNat_ofNat d.digits
  have hwhole : ∀ c t, ofNat d.digits = c :: t → Text.IsWhole [c] := by
    intro c t h
    rw [h, Text.IsDigits, List.forall_mem_cons] at hdigits
    refine isWhole_of_head hd ⟨List.cons_ne_nil _ _, ?_⟩ ?_
    · exact List.forall_mem_singleton.mpr hdigits.2.1
    · rw [h]
      rfl
  match hn : ofNat d.digits with
  | [] => exact absurd hn hdigits.1
  | [c] =>
    rw [hn] at hlen hvalue
    refine ⟨_, .of_parts negative rfl (hwhole c [] hn) .none hexponent, rfl, rfl, 0, ?_⟩
    refine congrArg₂ Decimal.mk ?_ ?_
    · rw [Option.getD_none, List.append_nil, hvalue, Nat.pow_zero, Nat.mul_one]
    · dsimp only
      rw [hpower, Option.getD_none, List.length_nil]
      rw [List.length_singleton] at hlen
      omega
  | c :: c' :: more =>
    rw [hn] at hlen hvalue
    have hfraction : Text.IsDigits (c' :: more) := by
      rw [hn, Text.IsDigits, List.forall_mem_cons] at hdigits
      exact ⟨List.cons_ne_nil _ _, hdigits.2.2⟩
    refine ⟨_, .of_parts negative ?_ (hwhole c _ hn) (.some hfraction) hexponent, rfl, rfl, 0, ?_⟩
    · simp [scientificText]
    · refine congrArg₂ Decimal.mk ?_ ?_
      · rw [Option.getD_some, List.singleton_append, hvalue, Nat.pow_zero, Nat.mul_one]
      · dsimp only
        rw [hpower, Option.getD_some]
        rw [List.length_cons] at hlen
        omega

/-- **The text of a decimal number** is a literal of that number. -/
theorem isLiteral_text (hd : 0 < d.digits) : IsLiteral d negative d.text := by
  rw [text]
  split_ifs
  · exact isLiteral_positionalText negative hd
  · exact isLiteral_scientificText negative hd

end Decimal

/-! ### Doubles and integers -/

theorem numberText_ofInt (n : Int) : NumberText (Decimal.ofInt n) (.int n) := by
  have hwhole := Decimal.isWhole_ofNat n.natAbs
  have h := NumberText.literal
    (.of_parts (decide (n < 0)) (List.append_nil _).symm hwhole .none .none)
  have hnumber : NumberLiteral.number ⟨decide (n < 0), Decimal.ofNat n.natAbs, none, none⟩
      = .int n := by
    rw [NumberLiteral.number, if_pos (by rfl)]
    exact congrArg Number.int (Decimal.signed_natAbs n (Decimal.toNat_ofNat _))
  have htext : minusSign (decide (n < 0)) ++ Decimal.ofNat n.natAbs = Decimal.ofInt n := by
    rw [Decimal.ofInt, minusSign]
    by_cases hn : n < 0
    · rw [decide_eq_true hn, if_pos rfl, if_pos hn]
      rfl
    · rw [decide_eq_false hn, if_neg (by decide), if_neg hn]
      rfl
  rw [List.append_nil, htext, hnumber] at h
  exact h

namespace Double

theorem signed_eq (negative : Bool) (t : Text) : signed negative t = minusSign negative ++ t := by
  cases negative <;> rfl

theorem ofIndex_index (negative : Bool) (m : Magnitude) :
    ofIndex negative m.index = .finite negative m := dif_pos m.isLt

/-- **The text of a double derives that double.** -/
theorem numberText_text {x : Double} (h : x.isFinite) : NumberText x.text (.double x) := by
  match x, h with
  | .finite negative m, _ =>
    rw [text, signed_eq]
    -- a literal that is no integer and is rounded to the index of the magnitude
    have hliteral : ∀ {t : Text} {l : NumberLiteral}, LiteralText (minusSign negative ++ t) l →
        l.isInteger = false → l.negative = negative →
        Magnitude.nearestIndexOfDecimal l.decimal = m.index →
        NumberText (minusSign negative ++ t) (.double (.finite negative m)) := by
      intro t l hl hint hneg hindex
      have hnumber : l.number = .double (.finite negative m) := by
        rw [NumberLiteral.number, hint, if_neg (by decide), hneg, ofDecimal, hindex, ofIndex_index]
      exact hnumber ▸ .literal hl
    by_cases hm : m.index = 0
    · let l : NumberLiteral :=
        ⟨negative, [CodePoint.ofChar '0'], some [CodePoint.ofChar '0'], none⟩
      have hl : LiteralText (minusSign negative ++ ("0.0" : Text)) l :=
        .of_parts negative rfl Decimal.isWhole_zero (.some Decimal.isWhole_zero.1) .none
      have hdigits : l.decimal.digits = 0 := by
        show Decimal.toNat ([CodePoint.ofChar '0'] ++ [CodePoint.ofChar '0']) = 0
        decide
      rw [if_pos hm]
      refine hliteral hl rfl rfl ?_
      rw [Magnitude.nearestIndexOfDecimal_of_digits hdigits, hm]
    · have hdigits : 0 < m.shortest.digits := by
        refine Nat.pos_of_ne_zero fun h0 => hm ?_
        rw [← Magnitude.nearestIndexOfDecimal_shortest m,
          Magnitude.nearestIndexOfDecimal_of_digits h0]
      obtain ⟨l, hl, hint, hneg, k, hk⟩ := Decimal.isLiteral_text negative hdigits
      rw [if_neg hm]
      refine hliteral hl hint hneg ?_
      rw [hk, Magnitude.nearestIndexOfDecimal_mul_pow, Magnitude.nearestIndexOfDecimal_shortest]

theorem isFinite_of_toInt? {x : Double} {n : Int} (h : x.toInt? = some n) : x.isFinite := by
  cases x with
  | finite => rfl
  | _ => cases h

end Double

/-! ### Numbers -/

namespace Number

/-- The text of a number, where the options allow it. -/
def text : Number → Text
  | .int n => Decimal.ofInt n
  | .double x => if x.isFinite then x.plainText else x.nonFiniteName

/-- What numbers the options allow: integers within the limit on digits, and doubles that are finite
unless the others are allowed too. -/
def Writable (opts : Options) : Number → Prop
  | .int n => n.natAbs < 10 ^ Decimal.digitLimit
  | .double x => x.isFinite ∨ opts.allowNan

/-- The number that the text of a number derives: a double that is a small whole number becomes an
integer. -/
def asWritten : Number → Number
  | .int n => .int n
  | .double x =>
    match x.toInt? with
    | some n => if n.natAbs < 10 ^ 21 then .int n else .double x
    | none => .double x

/-- **A double** is written as an integer if it is a small whole number, and else as what it is. -/
theorem double_cases (x : Double) :
    (∃ n, x.toInt? = some n ∧ n.natAbs < 10 ^ 21 ∧ asWritten (.double x) = .int n ∧
        text (.double x) = Decimal.ofInt n) ∨
      (asWritten (.double x) = .double x ∧ (x.isFinite → text (.double x) = x.text)) := by
  cases hx : x.toInt? with
  | none =>
    refine .inr ⟨?_, fun hfinite => ?_⟩
    · simp only [asWritten, hx]
    · rw [text, if_pos hfinite, Double.plainText, hx]
  | some n =>
    by_cases hn : n.natAbs < 10 ^ 21
    · refine .inl ⟨n, rfl, hn, ?_, ?_⟩
      · simp only [asWritten, hx, if_pos hn]
      · rw [text, if_pos (Double.isFinite_of_toInt? hx), Double.plainText, hx]
        exact if_pos hn
    · refine .inr ⟨?_, fun hfinite => ?_⟩
      · simp only [asWritten, hx, if_neg hn]
      · rw [text, if_pos hfinite, Double.plainText, hx]
        exact if_neg hn

/-- **The text of a number derives the number as it is written.** -/
theorem numberText_text (n : Number) : NumberText n.text n.asWritten := by
  cases n with
  | int n => exact numberText_ofInt n
  | double x =>
    rcases double_cases x with ⟨n, -, -, hwritten, htext⟩ | ⟨hwritten, htext⟩
    · rw [hwritten, htext]
      exact numberText_ofInt n
    · rw [hwritten]
      by_cases hx : x.isFinite
      · rw [htext hx]
        exact x.numberText_text hx
      · match x, hx with
        | .nan, _ => exact .nan
        | .infinite true, _ => exact .minusInfinity
        | .infinite false, _ => exact .infinity
        | .finite negative m, hx => exact absurd rfl hx

/-- The number as it is written has the same text. -/
theorem text_asWritten (n : Number) : n.asWritten.text = n.text := by
  cases n with
  | int n => rfl
  | double x =>
    rcases double_cases x with ⟨n, -, -, hwritten, htext⟩ | ⟨hwritten, -⟩
    · rw [hwritten, htext]
      rfl
    · rw [hwritten]

theorem Writable.asWritten {opts : Options} {n : Number} (h : n.Writable opts) :
    n.asWritten.Writable opts := by
  cases n with
  | int n => exact h
  | double x =>
    rcases double_cases x with ⟨n, -, hn, hwritten, -⟩ | ⟨hwritten, -⟩
    · rw [hwritten]
      exact hn.trans (by decide +kernel)
    · rwa [hwritten]

theorem Writable.withinDigitLimit {opts : Options} {n : Number} (h : n.Writable opts) :
    n.WithinDigitLimit := by
  cases n with
  | int n => exact h
  | double x => trivial

end Number

/-! ### Equality -/

namespace Double

theorem same_self {x : Double} (h : x ≠ .nan) : x.same x := by
  cases x with
  | nan => exact absurd rfl h
  | infinite negative => exact beq_self_eq_true negative
  | finite negative m => simp [same]

end Double

namespace Number

theorem same_toDatum (m n : Number) : m.toDatum.same n.toDatum = m.same n := by
  cases m <;> cases n <;> simp [toDatum, Datum.same, Datum.number?]

/-- **A number is equal to what is read back for it**, unless it is none. -/
theorem same_asWritten {n : Number} (h : n ≠ .double .nan) : n.asWritten.same n := by
  cases n with
  | int n => exact beq_self_eq_true n
  | double x =>
    rcases double_cases x with ⟨n, hx, -, hwritten, -⟩ | ⟨hwritten, -⟩
    · rw [hwritten, same, hx]
      exact beq_self_eq_true _
    · rw [hwritten]
      exact Double.same_self fun hnan => h (congrArg _ hnan)

end Number

end JsonLayout
