import JsonLayout.Datum.Basic

/-!
# The parts of a piece of data

What a piece of data offers to those who look into it.  Not all data have parts, and of those that
do, only objects and tables can be asked by key.

## Main definitions

* `Datum.length?`, `Datum.elements?`: the number of parts, and the parts.
* `Datum.entries?`: keys with values; an object lists a repeated key each time.
* `Datum.get?`: the value of a key, the last one of a repeated key.
* `AccessError`: what a piece of data does not offer.
-/

namespace JsonLayout

/-- What data of some type do not offer. -/
inductive AccessError where
  | length (type : Text)
  | elements (type : Text)
  | method (type : Text) (name : Text)
deriving DecidableEq

/-- An access error in words. -/
def AccessError.message : AccessError → Text
  | .length type => ("object of type '" : Text) ++ type ++ ("' has no len()" : Text)
  | .elements type => ("'" : Text) ++ type ++ ("' object is not iterable" : Text)
  | .method type name =>
    ("'" : Text) ++ type ++ ("' object has no attribute '" : Text) ++ name ++ ("'" : Text)

namespace Datum

/-- How many parts a piece of data has. -/
def length? (d : Datum) : Except AccessError Nat :=
  match d with
  | .array items | .list items | .tuple items => .ok items.length
  | .object members => .ok members.length
  | .dict entries => .ok entries.length
  | .str s => .ok s.length
  | .foreign .anonymous | .foreign .complexZero | .foreign (.ofClass _ _) =>
    .error (.length d.typeName)
  | .foreign _ => .ok 0
  | d => .error (.length d.typeName)

/-- The parts of a piece of data, in order.  Those of a table are its keys; an object has none that
could be gone through without them. -/
def elements? (d : Datum) : Except AccessError (List Datum) :=
  match d with
  | .array items | .list items | .tuple items => .ok items
  | .dict entries => .ok (entries.map (·.1))
  | .str s => .ok (s.map fun c => .str [c])
  | .foreign .anonymous | .foreign .complexZero | .foreign (.ofClass _ _) =>
    .error (.elements d.typeName)
  | .foreign _ => .ok []
  | d => .error (.elements d.typeName)

/-- The keys of an object or a table with their values.  `name` is what they were asked for as. -/
def entries? (d : Datum) (name : Text) : Except AccessError (List (Datum × Datum)) :=
  match d with
  | .object members => .ok (members.map fun m => (.str m.1, m.2))
  | .dict entries => .ok entries
  | d => .error (.method d.typeName name)

/-- The value of a key in an object or a table, if it has one. -/
def get? (d : Datum) (key : Text) : Except AccessError (Option Datum) :=
  match d with
  | .object members => .ok (Members.last? members key)
  | .dict entries =>
    let isKey : Datum → Bool
      | .str s => s == key
      | _ => false
    .ok ((entries.find? fun e => isKey e.1).map (·.2))
  | d => .error (.method d.typeName "get")

end Datum

end JsonLayout
