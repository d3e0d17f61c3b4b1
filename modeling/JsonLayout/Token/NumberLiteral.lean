import JsonLayout.Number

/-!
# Number literals

A number literal is a sign or none, a whole part without leading zeros, and after it perhaps a
fraction and a power of ten.  As much of a text is taken as makes a literal: a point without a digit
after it, or an `e` without a power, is left.

## Main definitions

* `NumberLiteral`: the parts of a literal.
* `NumberLiteral.scan`: the longest literal that a text begins with, and the text after it.
* `NumberLiteral.value`: the number that a literal writes.
-/

namespace JsonLayout

/-- The parts of a number literal, as texts of ASCII digits; `exponent` has a sign and digits. -/
structure NumberLiteral where
  negative : Bool
  whole : Text
  fraction : Option Text
  exponent : Option (Bool × Text)
deriving DecidableEq

namespace NumberLiteral

/-- The digits that a text begins with, and the text after them. -/
def digits (t : Text) : Text × Text :=
  (t.takeWhile CodePoint.isDigit, t.dropWhile CodePoint.isDigit)

/-- The whole part: a zero alone, or digits of which the first is none. -/
def scanWhole : Text → Option (Text × Text)
  | [] => none
  | c :: t =>
    if c = '0' then some ([c], t)
    else if c.isDigit then some (digits (c :: t))
    else none

/-- The fraction: a point and at least one digit. -/
def scanFraction : Text → Option Text × Text
  | c :: d :: t =>
    if c = '.' ∧ d.isDigit then
      let (ds, rest) := digits (d :: t)
      (some ds, rest)
    else (none, c :: d :: t)
  | t => (none, t)

/-- The sign of a power of ten, if it has one. -/
def scanSign : Text → Bool × Text
  | [] => (false, [])
  | c :: t => if c = '-' then (true, t) else if c = '+' then (false, t) else (false, c :: t)

/-- The power of ten: an `e` of either case, perhaps a sign, and at least one digit. -/
def scanExponent : Text → Option (Bool × Text) × Text
  | [] => (none, [])
  | c :: t =>
    if c = 'e' ∨ c = 'E' then
      let (negative, body) := scanSign t
      let (ds, rest) := digits body
      if ds.isEmpty then (none, c :: t) else (some (negative, ds), rest)
    else (none, c :: t)

/-- The longest literal that a text begins with, and the text after it. -/
def scan (t : Text) : Option (NumberLiteral × Text) :=
  let (negative, body) :=
    match t with
    | c :: rest => if c = '-' then (true, rest) else (false, t)
    | [] => (false, [])
  match scanWhole body with
  | none => none
  | some (whole, rest) =>
    let (fraction, rest) := scanFraction rest
    let (exponent, rest) := scanExponent rest
    some (⟨negative, whole, fraction, exponent⟩, rest)

/-- The decimal number of a literal, without its sign. -/
def decimal (l : NumberLiteral) : Decimal :=
  let fraction := l.fraction.getD []
  let power : Int :=
    match l.exponent with
    | none => 0
    | some (negative, ds) => if negative then -(Decimal.toNat ds : Int) else Decimal.toNat ds
  ⟨Decimal.toNat (l.whole ++ fraction), power - fraction.length⟩

/-- Whether a literal writes an integer: it has neither a fraction nor a power of ten. -/
def isInteger (l : NumberLiteral) : Bool := l.fraction.isNone && l.exponent.isNone

/-- The number that a literal writes, or the count of its digits if an integer has too many. -/
def value (l : NumberLiteral) : Except Nat Number :=
  if l.isInteger then
    if l.whole.length ≤ Decimal.digitLimit then
      let n : Int := Decimal.toNat l.whole
      .ok (.int (if l.negative then -n else n))
    else .error l.whole.length
  else .ok (.double (.ofDecimal l.negative l.decimal))

end NumberLiteral

end JsonLayout
