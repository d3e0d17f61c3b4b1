import JsonLayout.Datum.Basic
import JsonLayout.Text.Quoted

/-!
# Descriptions of data

A piece of data as an error message shows it, in one line and with its types visible.

## Main definitions

* `Datum.describe`: the description.
* `Datum.obstacle?`: what makes a description impossible.
-/

namespace JsonLayout

/-- The description of an object without JSON form.  That of an anonymous one goes on with its place
in memory, which is left out here. -/
def Foreign.describe : Foreign → Text
  | .emptySet => "set()"
  | .emptyFrozenSet => "frozenset()"
  | .noBytes => "b''"
  | .noByteArray => "bytearray(b'')"
  | .complexZero => "0j"
  | .anonymous => "<object object>"
  | .emptyRange => "range(0, 0)"
  | .ofClass _ description => description

/-- Why a piece of data cannot be described. -/
inductive Obstacle where
  /-- An integer in it has more digits than are written. -/
  | digits
  /-- Its parts are nested too deeply. -/
  | depth
deriving DecidableEq

namespace Datum

/-- A truth value in words. -/
def describeBool (b : Bool) : Text := if b then "True" else "False"

/-- Parts between brackets, with commas between them. -/
def describeList (opening closing : Text) (parts : List Text) : Text :=
  opening ++ Text.join ", " parts ++ closing

/-- Parts between parentheses; a single part is followed by a comma. -/
def describeTuple : List Text → Text
  | [part] => ("(" : Text) ++ part ++ ",)"
  | parts => describeList "(" ")" parts

mutual

/-- The description of a piece of data. -/
def describe : Datum → Text
  | .nothing => "None"
  | .bool b => describeBool b
  | .int n => Decimal.ofInt n
  | .float x => x.text
  | .str s => s.quoted
  | .list items => describeList "[" "]" (describeItems items)
  | .tuple items => describeTuple (describeItems items)
  | .dict entries => describeList "\x7b" "\x7d" (describeEntries entries)
  | .foreign f => f.describe
  | .null => "Null"
  | .boolean b => ("VBool(value=" : Text) ++ describeBool b ++ ")"
  | .number payload => ("VNumber(value=" : Text) ++ payload.describe ++ ")"
  | .string s => ("VString(value=" : Text) ++ s.quoted ++ ")"
  | .array items => ("VArray(items=" : Text) ++ describeTuple (describeItems items) ++ ")"
  | .object members =>
    ("VObject(entries=" : Text) ++ describeTuple (describeMembers members) ++ ")"

/-- The descriptions of items. -/
def describeItems : List Datum → List Text
  | [] => []
  | d :: items => d.describe :: describeItems items

/-- The descriptions of the entries of a table. -/
def describeEntries : List (Datum × Datum) → List Text
  | [] => []
  | (k, d) :: entries => (k.describe ++ (": " : Text) ++ d.describe) :: describeEntries entries

/-- The descriptions of the members of an object. -/
def describeMembers : List (Text × Datum) → List Text
  | [] => []
  | (key, d) :: members =>
    describeTuple [key.quoted, d.describe] :: describeMembers members

end

/-! ### What stands in the way of a description -/

/-- The most steps of a description, a comparison or a hash that may be nested in one another. -/
def stepLimit : Nat := 990

/-- The steps that the description of a piece of data takes before those of its parts.  Plain data
take one; a JSON value takes one for itself, two for its fields, and one for each tuple in it. -/
def describeSteps : Datum → Nat
  | .null => 2
  | .number _ => 3
  | .boolean _ | .string _ | .array _ | .object [] => 4
  | .object (_ :: _) => 5
  | _ => 1

mutual

/-- The first thing in a piece of data that cannot be described, with `room` for so many steps. -/
def obstacle? (room : Nat) (d : Datum) : Option Obstacle :=
  if room < d.describeSteps then some .depth
  else
    let room := room - d.describeSteps
    match d with
    | .int n => if Decimal.exceedsLimit n then some .digits else none
    | .list items | .tuple items | .array items => itemsObstacle? room items
    | .dict entries => entriesObstacle? room entries
    | .number payload => payload.obstacle? room
    | .object members => membersObstacle? room members
    | _ => none

/-- The same for all items. -/
def itemsObstacle? (room : Nat) : List Datum → Option Obstacle
  | [] => none
  | d :: items =>
    match d.obstacle? room with
    | some obstacle => some obstacle
    | none => itemsObstacle? room items

/-- The same for all entries, each key before its value. -/
def entriesObstacle? (room : Nat) : List (Datum × Datum) → Option Obstacle
  | [] => none
  | (k, d) :: entries =>
    match k.obstacle? room, d.obstacle? room with
    | some obstacle, _ => some obstacle
    | none, some obstacle => some obstacle
    | none, none => entriesObstacle? room entries

/-- The same for all members. -/
def membersObstacle? (room : Nat) : List (Text × Datum) → Option Obstacle
  | [] => none
  | (_, d) :: members =>
    match d.obstacle? room with
    | some obstacle => some obstacle
    | none => membersObstacle? room members

end

end Datum

end JsonLayout
