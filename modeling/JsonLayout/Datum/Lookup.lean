import JsonLayout.Datum.Equality
import JsonLayout.Datum.Error
import JsonLayout.Datum.Hash

/-!
# Comparing and hashing within limits

To be compared or hashed, data are gone through step by step, and only so many steps may be nested.
Members of a set and keys of a table have to be hashed, which data that can change refuse, and then
they are compared with those that have the same hash.

## Main definitions

* `Datum.equal?`: equality, unless the comparison goes too deep.
* `Datum.hashFault?`: why a piece of data cannot be hashed.
* `Datum.set?`, `Datum.put?`: a set, and a table with one value set, unless something in them cannot
  be hashed.
-/

namespace JsonLayout.Datum

/-! ### Comparing -/

mutual

/-- Whether the comparison of two pieces of data needs more than `room` nested steps.  Plain data
take one step before those of their parts; JSON values take one for themselves, two for their
fields, and one for each tuple in them. -/
def comparesBeyond (room : Nat) : Datum → Datum → Bool
  | .list xs, .list ys => room < 1 || xs.length == ys.length && itemsBeyond (room - 1) xs ys
  | .tuple xs, .tuple ys => room < 1 || itemsBeyond (room - 1) xs ys
  | .dict es, .dict fs => room < 1 || es.length == fs.length && entriesBeyond (room - 1) es fs
  | .boolean _, .boolean _ => room < 4
  | .number p, .number q => room < 3 || p.comparesBeyond (room - 3) q
  | .string _, .string _ => room < 4
  | .array xs, .array ys => room < 4 || itemsBeyond (room - 4) xs ys
  | .object ms, .object ns => room < 4 || membersBeyond (room - 5) ms ns
  | _, _ => room < 1

/-- The same for items, up to the first that differ. -/
def itemsBeyond (room : Nat) : List Datum → List Datum → Bool
  | x :: xs, y :: ys => x.comparesBeyond room y || x.same y && itemsBeyond room xs ys
  | _, _ => false

/-- The same for members, up to the first that differ. -/
def membersBeyond (room : Nat) : List (Text × Datum) → List (Text × Datum) → Bool
  | (k, x) :: ms, (l, y) :: ns =>
    k == l && (x.comparesBeyond room y || x.same y && membersBeyond room ms ns)
  | _, _ => false

/-- The same for the entries of a table and those of another with the same keys. -/
def entriesBeyond (room : Nat) : List (Datum × Datum) → List (Datum × Datum) → Bool
  | [], _ => false
  | (k, x) :: es, fs =>
    match fs.find? fun f => k.same f.1 with
    | some f => x.comparesBeyond room f.2 || x.same f.2 && entriesBeyond room es fs
    | none => false

end

/-- Equality of two pieces of data that are made apart.  What is known to be one and the same is not
gone through. -/
def equal? (d e : Datum) : Except DataError Bool :=
  if d.comparesBeyond stepLimit e then .error .comparedTooDeep else .ok (d.same e)

/-! ### Hashing -/

mutual

/-- Why a piece of data cannot be hashed in `room` nested steps.  A JSON value takes two steps
before those of its parts; plain data take none. -/
def hashFault? (room : Nat) : Datum → Option DataError
  | .list _ => some (.unhashable "list")
  | .dict _ => some (.unhashable "dict")
  | .foreign .emptySet => some (.unhashable "set")
  | .foreign .noByteArray => some (.unhashable "bytearray")
  | .tuple items => itemsHashFault? room items
  | .boolean _ | .string _ => if room < 2 then some .hashedTooDeep else none
  | .number payload => if room < 2 then some .hashedTooDeep else payload.hashFault? (room - 2)
  | .array items => if room < 2 then some .hashedTooDeep else itemsHashFault? (room - 2) items
  | .object members =>
    if room < 2 then some .hashedTooDeep else membersHashFault? (room - 2) members
  | _ => none

/-- The same for all items. -/
def itemsHashFault? (room : Nat) : List Datum → Option DataError
  | [] => none
  | d :: items =>
    match d.hashFault? room with
    | some fault => some fault
    | none => itemsHashFault? room items

/-- The same for all members. -/
def membersHashFault? (room : Nat) : List (Text × Datum) → Option DataError
  | [] => none
  | (_, d) :: members =>
    match d.hashFault? room with
    | some fault => some fault
    | none => membersHashFault? room members

end

/-- Fails unless a piece of data can be hashed and then compared with all those of the same hash. -/
def checkKey (d : Datum) (keys : List Datum) : Except DataError Unit :=
  match d.hashFault? stepLimit with
  | some fault => .error fault
  | none =>
    if keys.any fun e => d.hashForm.same e.hashForm && d.comparesBeyond stepLimit e then
      .error .comparedTooDeep
    else .ok ()

/-- Fails at the first piece of data that cannot be a key beside those before it. -/
def checkKeys (before : List Datum) : List Datum → Except DataError Unit
  | [] => .ok ()
  | d :: ds => do
    d.checkKey before
    checkKeys (d :: before) ds

/-- The members of the set of some data. -/
def set? (ds : List Datum) : Except DataError (List Datum) := do
  checkKeys [] ds
  return distinct ds

/-- A table with one value set.  A key has the place where it was set first and the value that was
set last. -/
def put? (entries : List (Datum × Datum)) (key d : Datum) :
    Except DataError (List (Datum × Datum)) := do
  key.checkKey (entries.map (·.1))
  return putEntry entries key d

end JsonLayout.Datum
