import JsonLayout.Datum.Basic

/-!
# Equality of data

Two JSON values are equal if they are of one kind and have equal contents, in the same order; a JSON
value is never equal to plain data.  Plain numbers, truth values included, are equal if their exact
values are; a table is equal to another with the same entries in any order.

## Main definitions

* `Datum.same`: equality of data.
* `Datum.distinct`: one of each class of equal data.
* `Datum.putEntry`: a table with one value set.
-/

namespace JsonLayout

/-- Empty sets are equal, frozen or not, and so are empty byte strings; an anonymous object, or one
of some other class, is equal to nothing else. -/
def Foreign.same : Foreign → Foreign → Bool
  | .emptySet, .emptySet | .emptySet, .emptyFrozenSet => true
  | .emptyFrozenSet, .emptySet | .emptyFrozenSet, .emptyFrozenSet => true
  | .noBytes, .noBytes | .noBytes, .noByteArray => true
  | .noByteArray, .noBytes | .noByteArray, .noByteArray => true
  | .emptyRange, .emptyRange => true
  | _, _ => false

namespace Datum

/-- The number that a plain piece of data is equal to. -/
def number? : Datum → Option Number
  | .bool b => some (.int (if b then 1 else 0))
  | .int n => some (.int n)
  | .float x => some (.double x)
  | .foreign .complexZero => some (.int 0)
  | _ => none

mutual

/-- Equality of data. -/
def same : Datum → Datum → Bool
  | .nothing, .nothing => true
  | .str s, .str t => s == t
  | .list xs, .list ys => itemsSame xs ys
  | .tuple xs, .tuple ys => itemsSame xs ys
  | .dict es, .dict fs => es.length == fs.length && entriesIn es fs
  | .null, .null => true
  | .boolean a, .boolean b => a == b
  | .number p, .number q => p.same q
  | .string s, .string t => s == t
  | .array xs, .array ys => itemsSame xs ys
  | .object ms, .object ns => membersSame ms ns
  | d, e =>
    match d.number?, e.number? with
    | some m, some n => m.same n
    | _, _ =>
      match d, e with
      | .foreign f, .foreign g => f.same g
      | _, _ => false

/-- Equality item by item. -/
def itemsSame : List Datum → List Datum → Bool
  | [], [] => true
  | x :: xs, y :: ys => x.same y && itemsSame xs ys
  | _, _ => false

/-- Equality member by member, keys included. -/
def membersSame : List (Text × Datum) → List (Text × Datum) → Bool
  | [], [] => true
  | (k, x) :: ms, (l, y) :: ns => k == l && x.same y && membersSame ms ns
  | _, _ => false

/-- Whether every entry has an equal one among `fs`. -/
def entriesIn : List (Datum × Datum) → List (Datum × Datum) → Bool
  | [], _ => true
  | (k, x) :: es, fs => (fs.any fun f => k.same f.1 && x.same f.2) && entriesIn es fs

end

/-! ### Sets and tables -/

/-- The data that are equal to none before them: one of each class of equal data. -/
def distinct (ds : List Datum) : List Datum :=
  (ds.foldl (fun seen d => if seen.any d.same then seen else d :: seen) []).reverse

/-- Sets the value of a key in a table, at its place if an equal key has one. -/
def putEntry : List (Datum × Datum) → Datum → Datum → List (Datum × Datum)
  | [], key, d => [(key, d)]
  | e :: es, key, d => if key.same e.1 then (e.1, d) :: es else e :: putEntry es key d

end Datum

end JsonLayout
