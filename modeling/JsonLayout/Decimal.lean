import JsonLayout.Text.CodePoint

/-!
# Decimal numbers

Whole numbers and decimal fractions as texts.

## Main definitions

* `Decimal.ofNat`, `Decimal.ofInt`: the decimal text of a whole number, without leading zeros.
* `Decimal.toNat`: the number that ASCII digits write.
* `Decimal`: the number `digits * 10 ^ exponent`.
* `Decimal.text`: its text, positional where the number is neither very large nor very small.
-/

namespace JsonLayout

/-- A nonnegative number with finitely many decimal places. -/
structure Decimal where
  digits : Nat
  exponent : Int
deriving DecidableEq

namespace Decimal

/-! ### Whole numbers -/

/-- The digit that counts `n`, of which the last decimal place is taken. -/
def digit (n : Nat) : CodePoint := ⟨0x30 + n % 10, by omega⟩

/-- The decimal text of `n`, put in front of `t`. -/
def ofNatOnto (n : Nat) (t : Text) : Text :=
  if n < 10 then digit n :: t else ofNatOnto (n / 10) (digit n :: t)
termination_by n

/-- The decimal text of a natural number. -/
def ofNat (n : Nat) : Text := ofNatOnto n []

/-- The decimal text of an integer. -/
def ofInt (n : Int) : Text :=
  if n < 0 then CodePoint.ofChar '-' :: ofNat n.natAbs else ofNat n.natAbs

/-- The natural number that ASCII digits write. -/
def toNat (digits : Text) : Nat := digits.foldl (fun n c => 10 * n + c.digitValue) 0

/-- How many digits the decimal text of a natural number has. -/
def size (n : Nat) : Nat := (ofNat n).length

/-- The most digits with which a whole number is read or written. -/
def digitLimit : Nat := 4300

/-- A whole number that has more digits than are written. -/
def exceedsLimit (n : Int) : Bool := 10 ^ digitLimit ≤ n.natAbs

/-! ### Fractions -/

/-- The power of ten that the first digit counts. -/
def leadingExponent (d : Decimal) : Int := size d.digits + d.exponent - 1

/-- Positional numbers have a first digit at `10 ^ (-4)` at least and below `10 ^ 16`. -/
def isPositional (leading : Int) : Bool := -4 ≤ leading && leading < 16

/-- The text of a power of ten after a number: its sign and at least two digits. -/
def exponentText (e : Int) : Text :=
  let mark : CodePoint := if e < 0 then '-' else '+'
  let magnitude := ofNat e.natAbs
  let padding : Text := List.replicate (2 - magnitude.length) (CodePoint.ofChar '0')
  CodePoint.ofChar 'e' :: mark :: (padding ++ magnitude)

/-- A number below one, or with a point among its digits, or with zeros filled in after them; there
is always a digit on both sides of the point. -/
def positionalText (digits : Text) (leading : Int) : Text :=
  let zeros (n : Nat) : Text := List.replicate n (CodePoint.ofChar '0')
  if leading < 0 then ("0." : Text) ++ zeros (-leading - 1).toNat ++ digits
  else
    let whole := leading.toNat + 1
    if digits.length ≤ whole then digits ++ zeros (whole - digits.length) ++ (".0" : Text)
    else digits.take whole ++ [CodePoint.ofChar '.'] ++ digits.drop whole

/-- One digit, the others after a point if there are more, and the power of ten. -/
def scientificText (digits : Text) (leading : Int) : Text :=
  match digits with
  | [] => exponentText leading
  | [d] => d :: exponentText leading
  | d :: more => d :: CodePoint.ofChar '.' :: (more ++ exponentText leading)

/-- The text of a decimal number. -/
def text (d : Decimal) : Text :=
  let digits := ofNat d.digits
  if isPositional d.leadingExponent then positionalText digits d.leadingExponent
  else scientificText digits d.leadingExponent

end Decimal

end JsonLayout
