import JsonLayout.Datum.Basic

/-!
# What data are hashed by

A set or a table compares a key with those of the same hash alone.  Equal data have the same hash,
but others may have it too: numbers are hashed by their remainder, and a JSON value is hashed as the
tuple of its fields, whatever kind of value it is.

The hash of a text is chosen anew in every run, and those of texts go into the hashes of tuples.  So
a hash is kept as the numbers, texts and tuples that it is made from, and two of these are taken to
be the same only if they are made from equal ones.  `NaN` is hashed as an object of its own, so no
other has its hash.

## Main definitions

* `Number.hash?`: the hash of a number.
* `Datum.hashForm`: what the hash of a piece of data is made from.
-/

namespace JsonLayout

/-- The prime number that numbers are divided by to be hashed. -/
def hashModulus : Nat := 2 ^ 61 - 1

/-- A hash with a sign.  The one that would be `-1` is `-2`. -/
def signedHash (negative : Bool) (n : Nat) : Int :=
  if n = 1 ∧ negative then -2 else if negative then -(n : Int) else n

/-- The hash of a double, unless it is no number.  Dividing by `2 ^ 1074` is multiplying by
`2 ^ 24` in remainders. -/
def Double.hash? : Double → Option Int
  | .nan => none
  | .infinite negative => some (signedHash negative 314159)
  | .finite negative m => some (signedHash negative (m.units * 2 ^ 24 % hashModulus))

/-- The hash of a number, unless it is none. -/
def Number.hash? : Number → Option Int
  | .int n => some (signedHash (decide (n < 0)) (n.natAbs % hashModulus))
  | .double x => x.hash?

namespace Datum

/-- What the hash of a number is made from: `NaN` has no other. -/
def numberForm (n : Number) : Datum :=
  match n.hash? with
  | some h => .int h
  | none => .float .nan

/-- What the hash of a text is made from.  That of the empty one is zero. -/
def textForm (s : Text) : Datum := if s.isEmpty then .int 0 else .str s

mutual

/-- **What the hash of a piece of data is made from.**  A truth value is a number here, and a JSON
value is the tuple of its fields. -/
def hashForm : Datum → Datum
  | .bool b => .int (if b then 1 else 0)
  | .int n => numberForm (.int n)
  | .float x => numberForm (.double x)
  | .str s => textForm s
  | .tuple items => .tuple (itemForms items)
  | .null => .tuple []
  | .boolean b => .tuple [.int (if b then 1 else 0)]
  | .number payload => .tuple [payload.hashForm]
  | .string s => .tuple [textForm s]
  | .array items => .tuple [.tuple (itemForms items)]
  | .object members => .tuple [.tuple (memberForms members)]
  | .foreign .complexZero | .foreign .noBytes => .int 0
  | .foreign .emptyRange => .tuple [.int 0, .nothing, .nothing]
  | d => d

/-- The same for items. -/
def itemForms : List Datum → List Datum
  | [] => []
  | d :: items => d.hashForm :: itemForms items

/-- The same for members, each of which is a tuple of its key and its value. -/
def memberForms : List (Text × Datum) → List Datum
  | [] => []
  | (k, d) :: members => .tuple [textForm k, d.hashForm] :: memberForms members

end

end Datum

end JsonLayout
