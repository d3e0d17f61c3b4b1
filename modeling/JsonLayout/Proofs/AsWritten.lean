import JsonLayout.Proofs.Number.Written
import Mathlib.Data.List.Basic

/-!
# Values as they are written

The value that is read back from the text of a value differs from it only in the kind of its
numbers, and not at all from a value that was read back already.

## Main definitions

* `Json.asWritten`: a value with every number as it is written.

## Main results

* `Json.nesting_asWritten`, `Json.strings_asWritten`, `Json.numbers_asWritten`: what it is made of.
* `Json.same_asWritten`: it is equal to the value.
-/

namespace JsonLayout

mutual

/-- A value with every number as it is written. -/
def Json.asWritten : Json → Json
  | .null => .null
  | .bool b => .bool b
  | .number n => .number n.asWritten
  | .string s => .string s
  | .array items => .array (itemsAsWritten items)
  | .object members => .object (membersAsWritten members)

/-- The items as they are written. -/
def itemsAsWritten : List Json → List Json
  | [] => []
  | j :: items => j.asWritten :: itemsAsWritten items

/-- The members as they are written, with the same keys. -/
def membersAsWritten : List (Text × Json) → List (Text × Json)
  | [] => []
  | (key, j) :: members => (key, j.asWritten) :: membersAsWritten members

end

theorem itemsAsWritten_eq_map (items : List Json) :
    itemsAsWritten items = items.map Json.asWritten := by
  induction items with
  | nil => rfl
  | cons j items ih => rw [itemsAsWritten, ih, List.map_cons]

theorem membersAsWritten_eq_map (members : List (Text × Json)) :
    membersAsWritten members = members.map fun m => (m.1, m.2.asWritten) := by
  induction members with
  | nil => rfl
  | cons m members ih => rw [membersAsWritten, ih, List.map_cons]

namespace Json

theorem asWritten_array (items : List Json) :
    (array items).asWritten = array (items.map asWritten) := by
  rw [asWritten, itemsAsWritten_eq_map]

theorem asWritten_object (members : List (Text × Json)) :
    (object members).asWritten = object (members.map fun m => (m.1, m.2.asWritten)) := by
  rw [asWritten, membersAsWritten_eq_map]

/-! ### What it is made of -/

theorem nesting_asWritten (j : Json) : j.asWritten.nesting = j.nesting := by
  -- two values are nested alike if they are bounded alike
  suffices h : ∀ n, j.asWritten.nesting ≤ n ↔ j.nesting ≤ n from
    Nat.le_antisymm ((h _).mpr le_rfl) ((h _).mp le_rfl)
  induction j using Json.induction with
  | array items ih =>
    intro n
    rw [asWritten_array]
    cases n with
    | zero =>
      exact iff_of_false (Nat.not_le.mpr (nesting_array_pos _))
        (Nat.not_le.mpr (nesting_array_pos _))
    | succ n =>
      rw [nesting_array_le_iff, nesting_array_le_iff, List.forall_mem_map]
      exact forall₂_congr fun j hj => ih j hj n
  | object members ih =>
    intro n
    rw [asWritten_object]
    cases n with
    | zero =>
      exact iff_of_false (Nat.not_le.mpr (nesting_object_pos _))
        (Nat.not_le.mpr (nesting_object_pos _))
    | succ n =>
      rw [nesting_object_le_iff, nesting_object_le_iff, List.forall_mem_map]
      exact forall₂_congr fun m hm => ih m hm n
  | _ => exact fun _ => Iff.rfl

theorem numbers_asWritten (j : Json) :
    j.asWritten.numbers = j.numbers.map Number.asWritten := by
  induction j using Json.induction with
  | array items ih =>
    rw [asWritten_array, numbers_array, numbers_array, List.flatMap_map, List.map_flatMap]
    exact List.flatMap_congr ih
  | object members ih =>
    rw [asWritten_object, numbers_object, numbers_object, List.flatMap_map, List.map_flatMap]
    exact List.flatMap_congr ih
  | _ => rfl

theorem strings_asWritten (j : Json) : j.asWritten.strings = j.strings := by
  induction j using Json.induction with
  | array items ih =>
    rw [asWritten_array, strings_array, strings_array, List.flatMap_map]
    exact List.flatMap_congr ih
  | object members ih =>
    rw [asWritten_object, strings_object, strings_object, List.flatMap_map]
    exact List.flatMap_congr fun m hm => congrArg (m.1 :: ·) (ih m hm)
  | _ => rfl

/-! ### Equality -/

theorem itemsSame_map {f g : Json → Datum} {items : List Json}
    (h : ∀ j ∈ items, (f j).same (g j)) : Datum.itemsSame (items.map f) (items.map g) := by
  induction items with
  | nil => rw [List.map_nil, List.map_nil, Datum.itemsSame]
  | cons j items ih =>
    rw [List.forall_mem_cons] at h
    rw [List.map_cons, List.map_cons, Datum.itemsSame, h.1, ih h.2]
    rfl

theorem membersSame_map {f g : Json → Datum} {members : List (Text × Json)}
    (h : ∀ m ∈ members, (f m.2).same (g m.2)) :
    Datum.membersSame (members.map fun m => (m.1, f m.2))
      (members.map fun m => (m.1, g m.2)) := by
  induction members with
  | nil => rw [List.map_nil, List.map_nil, Datum.membersSame]
  | cons m members ih =>
    rw [List.forall_mem_cons] at h
    rw [List.map_cons, List.map_cons, Datum.membersSame, h.1, ih h.2, beq_self_eq_true]
    rfl

/-- **A value as it is written is equal to the value**, unless there is something in it that is no
number. -/
theorem same_asWritten {j : Json} (h : ∀ n ∈ j.numbers, n ≠ .double .nan) :
    j.asWritten.toDatum.same j.toDatum := by
  induction j using Json.induction with
  | null => rw [asWritten, toDatum, Datum.same]
  | bool b => rw [asWritten, toDatum, Datum.same, beq_self_eq_true]
  | string s => rw [asWritten, toDatum, Datum.same, beq_self_eq_true]
  | number n =>
    rw [asWritten, toDatum, toDatum, Datum.same, Number.same_toDatum]
    exact Number.same_asWritten (h n (List.mem_singleton_self n))
  | array items ih =>
    rw [forall_numbers_array] at h
    rw [asWritten_array, toDatum, toDatum, itemsToData_eq_map, itemsToData_eq_map, List.map_map,
      Datum.same]
    exact itemsSame_map fun j hj => ih j hj (h j hj)
  | object members ih =>
    rw [forall_numbers_object] at h
    rw [asWritten_object, toDatum, toDatum, membersToData_eq_map, membersToData_eq_map,
      List.map_map, Datum.same]
    exact membersSame_map (f := fun j => j.asWritten.toDatum) fun m hm => ih m hm (h m hm)

end Json

end JsonLayout
