import JsonLayout.Members
import JsonLayout.Number

/-!
# Data

What can be handed to the formatter: JSON values, plain data that stands for them, and mixtures of
the two.  A JSON value checks nothing about its parts, so plain data may stand inside it, and a
number may hold something that is none; such parts come to light when the value is written.

## Main definitions

* `Json`: a JSON value through and through, as reading gives it.
* `Datum`: plain data and JSON values, mixed freely.
* `Json.toDatum`: the one as the other.
* `Datum.children`, `Datum.size`: the parts of a JSON array or object, and how many there are at any
  depth.
-/

namespace JsonLayout

/-- A JSON value.  An object keeps its members in order, repeated keys included. -/
inductive Json where
  | null
  | bool (b : Bool)
  | number (n : Number)
  | string (s : Text)
  | array (items : List Json)
  | object (members : List (Text × Json))

/-- An object of a type that has no JSON form. -/
inductive Foreign where
  | emptySet
  | emptyFrozenSet
  | noBytes
  | noByteArray
  | complexZero
  | anonymous
  | emptyRange
  /-- An object of some class by the name of the class and the object's own description, without
  anything else of its own. -/
  | ofClass (name description : Text)
deriving DecidableEq

/-- A piece of data: plain (`nothing` to `foreign`) or a JSON value (`null` to `object`). -/
inductive Datum where
  | nothing
  | bool (b : Bool)
  | int (n : Int)
  | float (x : Double)
  | str (s : Text)
  | list (items : List Datum)
  | tuple (items : List Datum)
  | dict (entries : List (Datum × Datum))
  | foreign (f : Foreign)
  | null
  | boolean (b : Bool)
  | number (payload : Datum)
  | string (s : Text)
  | array (items : List Datum)
  | object (members : List (Text × Datum))

instance : Inhabited Datum := ⟨.nothing⟩

/-- A number as plain data. -/
def Number.toDatum : Number → Datum
  | .int n => .int n
  | .double x => .float x

mutual

/-- A JSON value as a piece of data. -/
def Json.toDatum : Json → Datum
  | .null => .null
  | .bool b => .boolean b
  | .number n => .number n.toDatum
  | .string s => .string s
  | .array items => .array (itemsToData items)
  | .object members => .object (membersToData members)

/-- The items of an array as data. -/
def itemsToData : List Json → List Datum
  | [] => []
  | j :: items => j.toDatum :: itemsToData items

/-- The members of an object as data. -/
def membersToData : List (Text × Json) → List (Text × Datum)
  | [] => []
  | (key, j) :: members => (key, j.toDatum) :: membersToData members

end

namespace Foreign

/-- The name of the type of an object. -/
def typeName : Foreign → Text
  | .emptySet => "set"
  | .emptyFrozenSet => "frozenset"
  | .noBytes => "bytes"
  | .noByteArray => "bytearray"
  | .complexZero => "complex"
  | .anonymous => "object"
  | .emptyRange => "range"
  | .ofClass name _ => name

end Foreign

namespace Datum

/-- The name of the type of a piece of data. -/
def typeName : Datum → Text
  | .nothing => "NoneType"
  | .bool _ => "bool"
  | .int _ => "int"
  | .float _ => "float"
  | .str _ => "str"
  | .list _ => "list"
  | .tuple _ => "tuple"
  | .dict _ => "dict"
  | .foreign f => f.typeName
  | .null => "VNull"
  | .boolean _ => "VBool"
  | .number _ => "VNumber"
  | .string _ => "VString"
  | .array _ => "VArray"
  | .object _ => "VObject"

/-- Whether a piece of data is a JSON value on its outside. -/
def isValue : Datum → Bool
  | .null | .boolean _ | .number _ | .string _ | .array _ | .object _ => true
  | _ => false

/-- A JSON array or object. -/
def isContainer : Datum → Bool
  | .array _ | .object _ => true
  | _ => false

/-- What counts as true: everything but the null value, empty containers, and the zeros and empty
texts among plain data. -/
def isTrue : Datum → Bool
  | .nothing => false
  | .bool b => b
  | .int n => n ≠ 0
  | .float x => !x.same (.finite false Magnitude.zero)
  | .str s => !s.isEmpty
  | .list items => !items.isEmpty
  | .tuple items => !items.isEmpty
  | .dict entries => !entries.isEmpty
  | .foreign .anonymous | .foreign (.ofClass _ _) => true
  | .foreign _ => false
  | .null => false
  | .boolean _ => true
  | .number _ => true
  | .string _ => true
  | .array items => !items.isEmpty
  | .object members => !members.isEmpty

/-! ### The tree of arrays and objects -/

/-- The parts of a JSON array or object, in order. -/
def children : Datum → List Datum
  | .array items => items
  | .object members => members.map (·.2)
  | _ => []

mutual

/-- The number of pieces of data in a tree of JSON arrays and objects. -/
def size : Datum → Nat
  | .array items => 1 + itemsSize items
  | .object members => 1 + membersSize members
  | _ => 1

/-- The size of all items together. -/
def itemsSize : List Datum → Nat
  | [] => 0
  | d :: items => d.size + itemsSize items

/-- The size of all members together. -/
def membersSize : List (Text × Datum) → Nat
  | [] => 0
  | (_, d) :: members => d.size + membersSize members

end

theorem size_pos (d : Datum) : 0 < d.size := by
  cases d <;> simp only [size] <;> omega

theorem membersSize_eq (members : List (Text × Datum)) :
    membersSize members = itemsSize (members.map (·.2)) := by
  induction members with
  | nil => rfl
  | cons m members ih => rw [membersSize, ih, List.map_cons, itemsSize]

/-- A tree is larger than its parts together. -/
theorem itemsSize_children_lt (d : Datum) : itemsSize d.children < d.size := by
  cases d <;> simp only [children, size, membersSize_eq, itemsSize] <;> omega

@[simp] theorem itemsSize_append (ds es : List Datum) :
    itemsSize (ds ++ es) = itemsSize ds + itemsSize es := by
  induction ds with
  | nil => rw [List.nil_append, itemsSize, Nat.zero_add]
  | cons d ds ih => rw [List.cons_append, itemsSize, itemsSize, ih, Nat.add_assoc]

@[simp] theorem itemsSize_reverse (ds : List Datum) : itemsSize ds.reverse = itemsSize ds := by
  induction ds with
  | nil => rfl
  | cons d ds ih =>
    rw [List.reverse_cons, itemsSize_append, ih, itemsSize, itemsSize, itemsSize]
    omega

theorem itemsSize_filter_le (p : Datum → Bool) (ds : List Datum) :
    itemsSize (ds.filter p) ≤ itemsSize ds := by
  induction ds with
  | nil => exact Nat.le_refl _
  | cons d ds ih =>
    rw [List.filter_cons]
    split
    · rw [itemsSize, itemsSize]
      omega
    · rw [itemsSize]
      omega

end Datum

end JsonLayout
