import JsonLayout.Double.Shortest

/-!
# Numbers

A JSON number is an unbounded integer or a double, as its literal was written.

## Main definitions

* `Number`: an integer or a double.
* `Number.same`: equality of the exact values, across the two kinds.
-/

namespace JsonLayout

/-- A JSON number: an integer of any size, or a double. -/
inductive Number where
  | int (n : Int)
  | double (x : Double)
deriving DecidableEq

namespace Number

/-- Equality of exact values.  An integer equals a double only if the double is that very integer;
neither is rounded to compare them. -/
def same : Number → Number → Bool
  | .int m, .int n => m == n
  | .int m, .double x => x.toInt? == some m
  | .double x, .int n => x.toInt? == some n
  | .double x, .double y => x.same y

end Number

end JsonLayout
