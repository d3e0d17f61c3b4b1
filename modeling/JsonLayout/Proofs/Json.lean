import JsonLayout.Datum.Basic
import Mathlib.Logic.Basic

/-!
# What a JSON value is made of

The scalars of a JSON value at any depth, and how deep its containers are nested.

## Main definitions

* `Json.numbers`, `Json.strings`: the numbers, and the strings and keys, in reading order.
* `Number.WithinDigitLimit`: what integers are read and written.
* `Json.nesting`: how many containers stand inside one another at most.
* `Json.parts`: the values in a container, one level down.
* `Json.Readable`: values within the limits on nesting and on digits.

## Main results

* `Json.induction`, `Json.induction_parts`: what holds of a container as soon as it holds of its
  parts holds of all values.
* `Json.nesting_array_le_iff`, `Json.nesting_object_le_iff`: the nesting of a container and of its
  parts.
-/

namespace JsonLayout

/-! ### Induction -/

/-- **Induction over JSON values**, with all parts of a container at once. -/
@[elab_as_elim]
theorem Json.induction {motive : Json → Prop} (null : motive .null) (bool : ∀ b, motive (.bool b))
    (number : ∀ n, motive (.number n)) (string : ∀ s, motive (.string s))
    (array : ∀ items : List Json, (∀ j ∈ items, motive j) → motive (.array items))
    (object : ∀ members : List (Text × Json), (∀ m ∈ members, motive m.2) →
      motive (.object members)) (j : Json) : motive j :=
  match j with
  | .null => null
  | .bool b => bool b
  | .number n => number n
  | .string s => string s
  | .array items =>
    array items fun j _ => Json.induction null bool number string array object j
  | .object members =>
    object members fun m _ => Json.induction null bool number string array object m.2
termination_by j
decreasing_by
  · next h =>
    have := List.sizeOf_lt_of_mem h
    rw [Json.array.sizeOf_spec]
    omega
  · next h =>
    have := List.sizeOf_lt_of_mem h
    have : sizeOf m = 1 + sizeOf m.1 + sizeOf m.2 := rfl
    rw [Json.object.sizeOf_spec]
    omega

/-! ### As data -/

theorem itemsToData_eq_map (items : List Json) : itemsToData items = items.map Json.toDatum := by
  induction items with
  | nil => rfl
  | cons j items ih => rw [itemsToData, ih, List.map_cons]

theorem membersToData_eq_map (members : List (Text × Json)) :
    membersToData members = members.map fun m => (m.1, m.2.toDatum) := by
  induction members with
  | nil => rfl
  | cons m members ih => rw [membersToData, ih, List.map_cons]

/-! ### Numbers and strings -/

mutual

/-- The numbers in a JSON value at any depth, in reading order. -/
def Json.numbers : Json → List Number
  | .number n => [n]
  | .array items => itemsNumbers items
  | .object members => membersNumbers members
  | _ => []

/-- The numbers in all items. -/
def itemsNumbers : List Json → List Number
  | [] => []
  | j :: items => j.numbers ++ itemsNumbers items

/-- The numbers in the values of all members. -/
def membersNumbers : List (Text × Json) → List Number
  | [] => []
  | (_, j) :: members => j.numbers ++ membersNumbers members

end

mutual

/-- The strings in a JSON value at any depth, keys included, in reading order. -/
def Json.strings : Json → List Text
  | .string s => [s]
  | .array items => itemsStrings items
  | .object members => membersStrings members
  | _ => []

/-- The strings in all items. -/
def itemsStrings : List Json → List Text
  | [] => []
  | j :: items => j.strings ++ itemsStrings items

/-- The keys of all members, each before the strings in its value. -/
def membersStrings : List (Text × Json) → List Text
  | [] => []
  | (key, j) :: members => key :: (j.strings ++ membersStrings members)

end

namespace Json

theorem numbers_array (items : List Json) :
    (Json.array items).numbers = items.flatMap numbers := by
  rw [numbers]
  induction items with
  | nil => rfl
  | cons j items ih => rw [itemsNumbers, ih, List.flatMap_cons]

theorem numbers_object (members : List (Text × Json)) :
    (Json.object members).numbers = members.flatMap fun m => m.2.numbers := by
  rw [numbers]
  induction members with
  | nil => rfl
  | cons m members ih => rw [membersNumbers, ih, List.flatMap_cons]

theorem strings_array (items : List Json) :
    (Json.array items).strings = items.flatMap strings := by
  rw [strings]
  induction items with
  | nil => rfl
  | cons j items ih => rw [itemsStrings, ih, List.flatMap_cons]

theorem strings_object (members : List (Text × Json)) :
    (Json.object members).strings = members.flatMap fun m => m.1 :: m.2.strings := by
  rw [strings]
  induction members with
  | nil => rfl
  | cons m members ih => rw [membersStrings, ih, List.flatMap_cons, List.cons_append]

theorem forall_numbers_array {P : Number → Prop} {items : List Json} :
    (∀ n ∈ (Json.array items).numbers, P n) ↔ ∀ j ∈ items, ∀ n ∈ j.numbers, P n := by
  rw [numbers_array, List.forall_mem_flatMap]

theorem forall_numbers_object {P : Number → Prop} {members : List (Text × Json)} :
    (∀ n ∈ (Json.object members).numbers, P n) ↔ ∀ m ∈ members, ∀ n ∈ m.2.numbers, P n := by
  rw [numbers_object, List.forall_mem_flatMap]

theorem forall_strings_array {P : Text → Prop} {items : List Json} :
    (∀ s ∈ (Json.array items).strings, P s) ↔ ∀ j ∈ items, ∀ s ∈ j.strings, P s := by
  rw [strings_array, List.forall_mem_flatMap]

theorem forall_strings_object {P : Text → Prop} {members : List (Text × Json)} :
    (∀ s ∈ (Json.object members).strings, P s) ↔
      ∀ m ∈ members, P m.1 ∧ ∀ s ∈ m.2.strings, P s := by
  simp only [strings_object, List.forall_mem_flatMap, List.forall_mem_cons]

end Json

/-- An integer of at most as many digits as are read and written, or a double. -/
def Number.WithinDigitLimit : Number → Prop
  | .int n => n.natAbs < 10 ^ Decimal.digitLimit
  | .double _ => True

instance : DecidablePred Number.WithinDigitLimit
  | .int n => inferInstanceAs (Decidable (n.natAbs < 10 ^ Decimal.digitLimit))
  | .double _ => inferInstanceAs (Decidable True)

/-! ### Nesting -/

mutual

/-- How many containers stand inside one another at most; a scalar is in none. -/
def Json.nesting : Json → Nat
  | .array items => itemsNesting items + 1
  | .object members => membersNesting members + 1
  | _ => 0

/-- The deepest nesting among items. -/
def itemsNesting : List Json → Nat
  | [] => 0
  | j :: items => max j.nesting (itemsNesting items)

/-- The deepest nesting among the values of members. -/
def membersNesting : List (Text × Json) → Nat
  | [] => 0
  | (_, j) :: members => max j.nesting (membersNesting members)

end

namespace Json

theorem nesting_array_le_iff {items : List Json} {n : Nat} :
    (Json.array items).nesting ≤ n + 1 ↔ ∀ j ∈ items, j.nesting ≤ n := by
  rw [nesting, Nat.add_le_add_iff_right]
  induction items with
  | nil => simp [itemsNesting]
  | cons j items ih => rw [itemsNesting, Nat.max_le, ih, List.forall_mem_cons]

theorem nesting_object_le_iff {members : List (Text × Json)} {n : Nat} :
    (Json.object members).nesting ≤ n + 1 ↔ ∀ m ∈ members, m.2.nesting ≤ n := by
  rw [nesting, Nat.add_le_add_iff_right]
  induction members with
  | nil => simp [membersNesting]
  | cons m members ih => rw [membersNesting, Nat.max_le, ih, List.forall_mem_cons]

theorem nesting_array_pos (items : List Json) : 0 < (Json.array items).nesting := by
  rw [nesting]
  exact Nat.succ_pos _

theorem nesting_object_pos (members : List (Text × Json)) :
    0 < (Json.object members).nesting := by
  rw [nesting]
  exact Nat.succ_pos _

/-! ### Parts -/

/-- The values that stand in a container, one level down. -/
def parts : Json → List Json
  | .array items => items
  | .object members => members.map Prod.snd
  | _ => []

/-- Induction over the containers in a value. -/
@[elab_as_elim]
theorem induction_parts {motive : Json → Prop} (scalar : ∀ j : Json, j.nesting = 0 → motive j)
    (container : ∀ c : Json, 0 < c.nesting → (∀ j ∈ c.parts, motive j) → motive c) (j : Json) :
    motive j := by
  induction j using Json.induction with
  | null | bool | number | string => exact scalar _ rfl
  | array items ih => exact container _ (nesting_array_pos items) ih
  | object members ih =>
    refine container _ (nesting_object_pos members) ?_
    rwa [parts, List.forall_mem_map]

variable {c : Json}

theorem nesting_le_iff_parts (hc : 0 < c.nesting) {n : Nat} :
    c.nesting ≤ n + 1 ↔ ∀ j ∈ c.parts, j.nesting ≤ n := by
  cases c with
  | array items => exact nesting_array_le_iff
  | object members =>
    rw [nesting_object_le_iff, parts, List.forall_mem_map]
  | _ => exact absurd hc (Nat.lt_irrefl 0)

theorem forall_numbers_iff_parts (hc : 0 < c.nesting) {P : Number → Prop} :
    (∀ n ∈ c.numbers, P n) ↔ ∀ j ∈ c.parts, ∀ n ∈ j.numbers, P n := by
  cases c with
  | array items => exact forall_numbers_array
  | object members => rw [forall_numbers_object, parts, List.forall_mem_map]
  | _ => exact absurd hc (Nat.lt_irrefl 0)

theorem mem_numbers_of_mem_parts {j : Json} (hj : j ∈ c.parts) {n : Number} (hn : n ∈ j.numbers) :
    n ∈ c.numbers := by
  have hc : 0 < c.nesting := by
    cases c with
    | array items => exact nesting_array_pos items
    | object members => exact nesting_object_pos members
    | _ => exact absurd hj List.not_mem_nil
  exact (forall_numbers_iff_parts hc).mp (fun _ h => h) j hj n hn

/-! ### Limits -/

/-- A value that is not refused for its size: its containers are nested no deeper than `room`, and
no integer has too many digits. -/
def Readable (room : Nat) (j : Json) : Prop :=
  j.nesting ≤ room ∧ ∀ n ∈ j.numbers, n.WithinDigitLimit

theorem Readable.exists_room {room : Nat} {j : Json} (h : j.Readable room) (hj : 0 < j.nesting) :
    ∃ r, room = r + 1 :=
  Nat.exists_eq_add_one.mpr (Nat.lt_of_lt_of_le hj h.1)

theorem readable_array_iff {room : Nat} {items : List Json} :
    (Json.array items).Readable (room + 1) ↔ ∀ j ∈ items, j.Readable room := by
  rw [Readable, nesting_array_le_iff, forall_numbers_array]
  exact forall₂_and.symm

theorem readable_object_iff {room : Nat} {members : List (Text × Json)} :
    (Json.object members).Readable (room + 1) ↔ ∀ m ∈ members, m.2.Readable room := by
  rw [Readable, nesting_object_le_iff, forall_numbers_object]
  exact forall₂_and.symm

end Json

end JsonLayout
