import JsonLayout.Double.Basic

/-!
# The shortest decimal text of a double

A double is written with the fewest digits that read back as the same double, and of the numbers
with that many digits it takes the nearest.

The decimal numbers with `n` digits around a magnitude lie on a grid.  If any of them reads back as
the magnitude, then so does one of its two neighbours on that grid, so it is enough to try these
two for `n = 0, 1, 2, …`; with no digits the upper neighbour is the next power of ten.

## Main definitions

* `Magnitude.onGrid?`: the multiple of a power of ten that reads back as a magnitude.
* `Magnitude.shortest`: the shortest decimal number that does.
* `Double.text`: the text of a double.
-/

namespace JsonLayout

namespace Magnitude

/-- The power of ten that the first digit of a magnitude other than zero counts. -/
def leadingExponent (m : Magnitude) : Int := Decimal.size (m.units * 10 ^ 400 / one) - 401

/-- Whether a decimal number reads back as a magnitude. -/
def readsBack (m : Magnitude) (d : Decimal) : Bool := nearestIndexOfDecimal d == m.index

/-- The magnitude divided by `10 ^ exponent`, as a numerator and a denominator. -/
def scaled (m : Magnitude) (exponent : Int) : Nat × Nat :=
  if 0 ≤ exponent then (m.units, one * 10 ^ exponent.toNat)
  else (m.units * 10 ^ (-exponent).toNat, one)

/-- The multiple of `10 ^ exponent` that is next to a magnitude, below or above, and reads back as
it: of two the nearer, and of two that are equally near the even one. -/
def onGrid? (m : Magnitude) (exponent : Int) : Option Decimal :=
  let (num, den) := m.scaled exponent
  let below : Decimal := ⟨num / den, exponent⟩
  let above : Decimal := ⟨num / den + 1, exponent⟩
  let rest := 2 * (num % den)
  match m.readsBack below, m.readsBack above with
  | true, true =>
    if rest < den ∨ (rest = den ∧ below.digits % 2 = 0) then some below else some above
  | true, false => some below
  | false, true => some above
  | false, false => none

/-- A magnitude written out to its last decimal place. -/
def exact (m : Magnitude) : Decimal := ⟨m.units * 5 ^ 1074, -1074⟩

/-- The decimal number with the fewest digits that reads back as a magnitude.  Seventeen digits
always do; the exact number is there so that the result reads back in any case. -/
def shortest (m : Magnitude) : Decimal :=
  let leading := m.leadingExponent
  ((List.range 18).findSome? fun (n : Nat) => m.onGrid? (leading + 1 - n)).getD m.exact

end Magnitude

namespace Double

/-- A minus sign in front of a text, where there is one. -/
def signed (negative : Bool) (t : Text) : Text :=
  if negative then CodePoint.ofChar '-' :: t else t

/-- The text of a double, with a point or an exponent in it so that it cannot be taken for a whole
number. -/
def text : Double → Text
  | .nan => "nan"
  | .infinite negative => signed negative "inf"
  | .finite negative m =>
    signed negative (if m.index = 0 then ("0.0" : Text) else m.shortest.text)

end Double

end JsonLayout
