import JsonLayout.Decimal

/-!
# Double-precision numbers

The numbers of the binary format with 64 bits, in exact arithmetic.  The finite magnitudes are
numbered in increasing order: magnitude number `i` is `unitsAt i` times `2 ^ (-1074)`, and its
neighbours are those with the numbers next to `i`.

## Main definitions

* `Magnitude`, `Magnitude.units`: a finite magnitude and its exact size.
* `Double`: a signed magnitude, an infinity, or the value that is not a number.
* `Magnitude.nearestIndex`: rounding of a fraction to the nearest magnitude, ties to the even index.
* `Double.ofDecimal`: the double nearest to a decimal number.
-/

namespace JsonLayout

/-- The number of finite magnitudes: 2047 exponents with `2 ^ 52` fractions each. -/
def Magnitude.count : Nat := 2047 * 2 ^ 52

/-- A finite magnitude, by its place in the increasing order of all of them. -/
structure Magnitude where
  index : Nat
  isLt : index < Magnitude.count
deriving DecidableEq

namespace Magnitude

/-- The magnitude zero. -/
def zero : Magnitude := ⟨0, by decide⟩

/-- The size of magnitude number `index`, in units of `2 ^ (-1074)`.  The upper bits of the index
are the exponent; below the first exponent the steps are those of the first. -/
def unitsAt (index : Nat) : Nat :=
  let exponent := index / 2 ^ 52
  let fraction := index % 2 ^ 52
  if exponent = 0 then fraction else (2 ^ 52 + fraction) * 2 ^ (exponent - 1)

/-- The size of a magnitude, in units of `2 ^ (-1074)`. -/
def units (m : Magnitude) : Nat := unitsAt m.index

/-- How many units make one. -/
def one : Nat := 2 ^ 1074

/-- The index of the magnitude nearest to `num / den` units, the even one of two that are equally
near.  The index goes on above the finite magnitudes. -/
def nearestIndex (num den : Nat) : Nat :=
  let shift := (num / den).log2 - 52
  let step := den * 2 ^ shift
  let below := shift * 2 ^ 52 + num / step
  let rest := 2 * (num % step)
  if step < rest ∨ (rest = step ∧ below % 2 = 1) then below + 1 else below

/-- The index of the magnitude nearest to a decimal number.  Numbers far outside the range of the
finite magnitudes are told apart by their first digit alone. -/
def nearestIndexOfDecimal (d : Decimal) : Nat :=
  if d.digits = 0 then 0
  else if 310 ≤ d.leadingExponent then count
  else if d.leadingExponent < -330 then 0
  else if 0 ≤ d.exponent then nearestIndex (d.digits * 10 ^ d.exponent.toNat * one) 1
  else nearestIndex (d.digits * one) (10 ^ (-d.exponent).toNat)

end Magnitude

/-- A double-precision number.  Zero has two signs. -/
inductive Double where
  | nan
  | infinite (negative : Bool)
  | finite (negative : Bool) (magnitude : Magnitude)
deriving DecidableEq

namespace Double

/-- The double with a magnitude of the given index, infinite from `Magnitude.count` up. -/
def ofIndex (negative : Bool) (index : Nat) : Double :=
  if h : index < Magnitude.count then .finite negative ⟨index, h⟩ else .infinite negative

/-- The double nearest to a decimal number with a sign. -/
def ofDecimal (negative : Bool) (d : Decimal) : Double :=
  ofIndex negative (Magnitude.nearestIndexOfDecimal d)

/-- A number other than the infinities and the value that is no number. -/
def isFinite : Double → Bool
  | .finite _ _ => true
  | _ => false

/-- The integer that a double is equal to, if there is one. -/
def toInt? : Double → Option Int
  | .finite negative m =>
    if m.units % Magnitude.one = 0 then
      let n := m.units / Magnitude.one
      some (if negative then -(n : Int) else n)
    else none
  | _ => none

/-- Equality as numbers: the two zeros are equal, and the value that is no number differs from
everything. -/
def same : Double → Double → Bool
  | .infinite s, .infinite t => s == t
  | .finite s m, .finite t n => m.index == n.index && (s == t || m.index == 0)
  | _, _ => false

end Double

end JsonLayout
