import JsonLayout.Proofs.Text
import JsonLayout.Token.Scan

/-!
# The grammar of JSON

Which texts stand for which JSON values, said without a reader: by the parts that a text is put
together from.  JSON is extended by the three names of numbers that are not finite; apart from
them, a number is written as an exact integer or rounded to the nearest double.

## Main definitions

* `UnitsText`, `StringText`: bodies of strings, and strings between quotes.
* `LiteralText`, `NumberText`: number literals, and all numbers.
* `ValueText`: values, without white space around them.
* `JsonText`: whole texts.

## Main results

* `NumberText.isNumeral`: the characters that numbers are written with.
-/

namespace JsonLayout

/-! ### White space -/

/-- Nothing but white space of JSON. -/
def Text.IsJsonBlank (t : Text) : Prop := ∀ c ∈ t, c.isJsonBlank

instance : DecidablePred Text.IsJsonBlank :=
  fun _ => List.decidableBAll _ _

/-- A text with white space around it, and what the text stands for. -/
structure Padded (α : Type) where
  before : Text
  body : Text
  after : Text
  value : α
  isJsonBlank_before : before.IsJsonBlank
  isJsonBlank_after : after.IsJsonBlank

namespace Padded

variable {α : Type}

/-- The text with the white space. -/
def text (p : Padded α) : Text := p.before ++ p.body ++ p.after

end Padded

/-! ### Strings -/

/-- The letters that may stand behind a backslash, with what they stand for there. -/
def escapeLetters : List (CodePoint × CodePoint) :=
  [('"', '"'), ('\\', '\\'), ('/', '/'), ('b', '\x08'), ('f', '\x0C'), ('n', '\n'), ('r', '\r'),
    ('t', '\t')]

/-- The body of a string as a sequence of code points, each standing for itself or escaped. -/
inductive UnitsText : Text → List StringUnit → Prop where
  | nil : UnitsText [] []
  | plain {c : CodePoint} {t : Text} {us : List StringUnit} (control : 0x20 ≤ c.val)
      (quote : c ≠ CodePoint.ofChar '"') (backslash : c ≠ CodePoint.ofChar '\\')
      (tail : UnitsText t us) : UnitsText (c :: t) (⟨c, false⟩ :: us)
  | letter {e p : CodePoint} {t : Text} {us : List StringUnit} (letter : (e, p) ∈ escapeLetters)
      (tail : UnitsText t us) :
      UnitsText (CodePoint.ofChar '\\' :: e :: t) (⟨p, false⟩ :: us)
  | numbered {a b c d p : CodePoint} {w x y z : Nat} {t : Text} {us : List StringUnit}
      (ha : a.hexValue? = some w) (hb : b.hexValue? = some x) (hc : c.hexValue? = some y)
      (hd : d.hexValue? = some z) (number : p.val = w * 0x1000 + x * 0x100 + y * 0x10 + z)
      (tail : UnitsText t us) :
      UnitsText (CodePoint.ofChar '\\' :: CodePoint.ofChar 'u' :: a :: b :: c :: d :: t)
        (⟨p, true⟩ :: us)

namespace StringUnit

/-- Whether two neighbours stand for one code point: the halves of a surrogate pair, both of them
written by numbered escapes. -/
def isPair (u v : StringUnit) : Bool :=
  u.numbered && v.numbered && u.point.isHighSurrogate && v.point.isLowSurrogate

/-- The text of a sequence of units.  Pairs are taken from the left. -/
def joined : List StringUnit → Text
  | [] => []
  | [u] => [u.point]
  | u :: v :: us =>
    if u.isPair v then u.point.joinSurrogates v.point :: joined us else u.point :: joined (v :: us)

end StringUnit

/-- A string between quotes. -/
inductive StringText : Text → Text → Prop where
  | mk {b : Text} {us : List StringUnit} (body : UnitsText b us) :
      StringText (CodePoint.ofChar '"' :: (b ++ [CodePoint.ofChar '"'])) (StringUnit.joined us)

/-! ### Numbers -/

/-- At least one digit, and nothing else. -/
def Text.IsDigits (t : Text) : Prop := t ≠ [] ∧ ∀ c ∈ t, c.isDigit

/-- The whole part of a number has no leading zero. -/
def Text.IsWhole (t : Text) : Prop :=
  t.IsDigits ∧ (t.head? = some (CodePoint.ofChar '0') → t = [CodePoint.ofChar '0'])

/-- A fraction, or none. -/
inductive FractionText : Text → Option Text → Prop where
  | none : FractionText [] none
  | some {ds : Text} (digits : ds.IsDigits) : FractionText (CodePoint.ofChar '.' :: ds) (some ds)

/-- The sign of a power of ten, and whether it is negative. -/
inductive SignText : Text → Bool → Prop where
  | none : SignText [] false
  | plus : SignText [CodePoint.ofChar '+'] false
  | minus : SignText [CodePoint.ofChar '-'] true

/-- A power of ten, or none. -/
inductive ExponentText : Text → Option (Bool × Text) → Prop where
  | none : ExponentText [] none
  | some {e : CodePoint} {s ds : Text} {negative : Bool}
      (mark : e = CodePoint.ofChar 'e' ∨ e = CodePoint.ofChar 'E') (sign : SignText s negative)
      (digits : ds.IsDigits) : ExponentText (e :: (s ++ ds)) (some (negative, ds))

/-- A minus sign, or nothing. -/
def minusSign (negative : Bool) : Text := if negative then [CodePoint.ofChar '-'] else []

/-- A number literal with its parts. -/
inductive LiteralText : Text → NumberLiteral → Prop where
  | mk {negative : Bool} {whole f e : Text} {fraction : Option Text}
      {exponent : Option (Bool × Text)} (hw : whole.IsWhole) (hf : FractionText f fraction)
      (he : ExponentText e exponent) :
      LiteralText (minusSign negative ++ whole ++ f ++ e) ⟨negative, whole, fraction, exponent⟩

/-- The number that a literal writes: an integer of any size, or with a fraction or a power of ten
the nearest double. -/
def NumberLiteral.number (l : NumberLiteral) : Number :=
  if l.isInteger then
    let n : Int := Decimal.toNat l.whole
    .int (if l.negative then -n else n)
  else .double (.ofDecimal l.negative l.decimal)

/-- A number, as a literal or by name. -/
inductive NumberText : Text → Number → Prop where
  | literal {t : Text} {l : NumberLiteral} (h : LiteralText t l) : NumberText t l.number
  | nan : NumberText "NaN" (.double .nan)
  | infinity : NumberText "Infinity" (.double (.infinite false))
  | minusInfinity : NumberText "-Infinity" (.double (.infinite true))

/-- A character of a number: a digit, a letter of a name or of a power of ten, a sign or a point. -/
def CodePoint.isNumeral (c : CodePoint) : Bool :=
  c.isDigit || (0x41 ≤ c.val && c.val ≤ 0x5A) || (0x61 ≤ c.val && c.val ≤ 0x7A) ||
    [CodePoint.ofChar '+', CodePoint.ofChar '-', CodePoint.ofChar '.'].contains c

theorem Text.IsDigits.isNumeral {t : Text} (h : t.IsDigits) : ∀ c ∈ t, c.isNumeral := by
  intro c hc
  rw [CodePoint.isNumeral, h.2 c hc]
  rfl

theorem NumberText.isNumeral {t : Text} {n : Number} (h : NumberText t n) :
    ∀ c ∈ t, c.isNumeral := by
  cases h with
  | nan | infinity | minusInfinity => decide
  | literal h =>
    obtain @⟨negative, whole, f, e, fraction, exponent, hw, hf, he⟩ := h
    simp only [List.forall_mem_append]
    refine ⟨⟨⟨?_, hw.1.isNumeral⟩, ?_⟩, ?_⟩
    · cases negative <;> decide
    · cases hf with
      | none => exact List.forall_mem_nil _
      | some hd => exact List.forall_mem_cons.mpr ⟨rfl, hd.isNumeral⟩
    · cases he with
      | none => exact List.forall_mem_nil _
      | @some c s ds negative mark sign hd =>
        have hs : ∀ c ∈ s, c.isNumeral := by cases sign <;> decide
        refine List.forall_mem_cons.mpr ⟨?_, List.forall_mem_append.mpr ⟨hs, hd.isNumeral⟩⟩
        rcases mark with rfl | rfl <;> rfl

/-! ### Values -/

/-- A member of an object: a key, a colon and a value. -/
def memberText (p : Padded Text × Padded Json) : Text :=
  p.1.text ++ CodePoint.ofChar ':' :: p.2.text

/-- The text of a value, without white space around it.  Items and members have commas between
them; an object has its members in order, repeated keys included. -/
inductive ValueText : Text → Json → Prop where
  | null : ValueText "null" .null
  | true : ValueText "true" (.bool true)
  | false : ValueText "false" (.bool false)
  | number {t : Text} {n : Number} (h : NumberText t n) : ValueText t (.number n)
  | string {t s : Text} (h : StringText t s) : ValueText t (.string s)
  | emptyArray {w : Text} (h : w.IsJsonBlank) :
      ValueText (CodePoint.ofChar '[' :: (w ++ [CodePoint.ofChar ']'])) (.array [])
  | array {parts : List (Padded Json)} (some : parts ≠ [])
      (items : ∀ p ∈ parts, ValueText p.body p.value) :
      ValueText
        (CodePoint.ofChar '[' ::
          (Text.join [CodePoint.ofChar ','] (parts.map Padded.text) ++ [CodePoint.ofChar ']']))
        (.array (parts.map Padded.value))
  | emptyObject {w : Text} (h : w.IsJsonBlank) :
      ValueText (CodePoint.ofChar '{' :: (w ++ [CodePoint.ofChar '}'])) (.object [])
  | object {parts : List (Padded Text × Padded Json)} (some : parts ≠ [])
      (keys : ∀ p ∈ parts, StringText p.1.body p.1.value)
      (values : ∀ p ∈ parts, ValueText p.2.body p.2.value) :
      ValueText
        (CodePoint.ofChar '{' ::
          (Text.join [CodePoint.ofChar ','] (parts.map memberText) ++ [CodePoint.ofChar '}']))
        (.object (parts.map fun p => (p.1.value, p.2.value)))

/-- A whole text: a value with white space around it. -/
def JsonText (t : Text) (j : Json) : Prop :=
  ∃ p : Padded Json, ValueText p.body p.value ∧ p.text = t ∧ p.value = j

end JsonLayout
