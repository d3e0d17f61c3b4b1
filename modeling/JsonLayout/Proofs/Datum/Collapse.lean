import JsonLayout.Datum.Access
import JsonLayout.Proofs.Alike
import JsonLayout.Proofs.Datum.ToPlain
import JsonLayout.Proofs.Datum.ToValue

/-!
# Repeated keys in plain data

A dict has each key once, so an object does not come back from plain data as it was if a key is
repeated in it.  It comes back collapsed, and so does every object in it, those under a repeated key
included: each key stands where it came first, with the value that came last, which is the one that
the object itself gives for the key.

## Main definitions

* `Json.collapsed`: a value with each key once in every object.
* `Json.objects`: the members of every object in a value.

## Main results

* `Json.collapsed_eq_self_iff`, `Json.alike_collapsed_iff`: nothing is lost if and only if no object
  repeats a key.
* `Json.toPlain_collapses`: plain data have a value collapsed, and under a key what the value has.
-/

namespace JsonLayout

mutual

/-- **A value with each key once**, at its first place and with its last value, in every object at
any depth. -/
def Json.collapsed : Json → Json
  | .array items => .array (itemsCollapsed items)
  | .object members => .object (membersCollapsed members).latest
  | j => j

/-- Items with each key once in the objects in them. -/
def itemsCollapsed : List Json → List Json
  | [] => []
  | j :: items => j.collapsed :: itemsCollapsed items

/-- Members with each key once in the objects in their values. -/
def membersCollapsed : List (Text × Json) → Members Json
  | [] => []
  | (key, j) :: members => (key, j.collapsed) :: membersCollapsed members

end

mutual

/-- The members of each object in a value at any depth, those under a repeated key included. -/
def Json.objects : Json → List (Members Json)
  | .array items => itemsObjects items
  | .object members => members :: membersObjects members
  | _ => []

/-- The members of each object in items. -/
def itemsObjects : List Json → List (Members Json)
  | [] => []
  | j :: items => j.objects ++ itemsObjects items

/-- The members of each object in the values of members. -/
def membersObjects : List (Text × Json) → List (Members Json)
  | [] => []
  | (_, j) :: members => j.objects ++ membersObjects members

end

namespace Json

/-! ### Part by part -/

theorem collapsed_array (items : List Json) :
    (array items).collapsed = array (items.map collapsed) := by
  rw [collapsed]
  congr 1
  induction items with
  | nil => rfl
  | cons j items ih => rw [itemsCollapsed, ih, List.map_cons]

/-- Whether values are collapsed before or after the last of each key is taken makes no
difference. -/
theorem collapsed_object (members : Members Json) :
    (object members).collapsed = object (members.latest.map fun m => (m.1, m.2.collapsed)) := by
  have hmembers : ∀ members : List (Text × Json),
      membersCollapsed members = members.map fun m => (m.1, m.2.collapsed) := by
    intro members
    induction members with
    | nil => rfl
    | cons m members ih => rw [membersCollapsed, ih, List.map_cons]
  rw [collapsed, hmembers, Members.latest_map]

theorem forall_objects_array {P : Members Json → Prop} {items : List Json} :
    (∀ ms ∈ (array items).objects, P ms) ↔ ∀ j ∈ items, ∀ ms ∈ j.objects, P ms := by
  have hitems : ∀ items : List Json, itemsObjects items = items.flatMap objects := by
    intro items
    induction items with
    | nil => rfl
    | cons j items ih => rw [itemsObjects, ih, List.flatMap_cons]
  rw [objects, hitems, List.forall_mem_flatMap]

theorem forall_objects_object {P : Members Json → Prop} {members : Members Json} :
    (∀ ms ∈ (object members).objects, P ms) ↔
      P members ∧ ∀ m ∈ members, ∀ ms ∈ m.2.objects, P ms := by
  have hmembers : ∀ members : List (Text × Json),
      membersObjects members = members.flatMap fun m => m.2.objects := by
    intro members
    induction members with
    | nil => rfl
    | cons m members ih => rw [membersObjects, ih, List.flatMap_cons]
  rw [objects, hmembers, List.forall_mem_cons, List.forall_mem_flatMap]

/-! ### What is lost -/

theorem keys_map_collapsed (members : Members Json) :
    Members.keys (members.map fun m => (m.1, m.2.collapsed)) = members.keys := by
  simp [Members.keys]

/-- **No key is repeated** in an object of a collapsed value. -/
theorem nodup_keys_collapsed (j : Json) : ∀ ms ∈ j.collapsed.objects, ms.keys.Nodup := by
  induction j using Json.induction with
  | array items ih =>
    rw [collapsed_array, forall_objects_array, List.forall_mem_map]
    exact ih
  | object members ih =>
    rw [collapsed_object, forall_objects_object, List.forall_mem_map, keys_map_collapsed,
      Members.keys_latest]
    exact ⟨nodup_eraseDups _, fun m hm => ih m (Members.mem_of_mem_latest hm)⟩
  | _ => exact List.forall_mem_nil _

/-- **A value stays** as it is if and only if no object in it repeats a key. -/
theorem collapsed_eq_self_iff {j : Json} :
    j.collapsed = j ↔ ∀ ms ∈ j.objects, ms.keys.Nodup := by
  constructor
  · intro h
    rw [← h]
    exact nodup_keys_collapsed j
  · intro h
    induction j using Json.induction with
    | array items ih =>
      rw [forall_objects_array] at h
      rw [collapsed_array, List.map_congr_left fun j hj => ih j hj (h j hj), List.map_id']
    | object members ih =>
      rw [forall_objects_object] at h
      have hmembers : (members.map fun m => (m.1, m.2.collapsed)) = members := by
        rw [List.map_congr_left fun m hm => by rw [ih m hm (h.2 m hm)], List.map_id']
      rw [collapsed_object, Members.latest_eq_self_iff.mpr h.1, hmembers]
    | _ => rfl

/-- Nothing is left to be collapsed the second time. -/
theorem collapsed_collapsed (j : Json) : j.collapsed.collapsed = j.collapsed :=
  collapsed_eq_self_iff.mpr (nodup_keys_collapsed j)

/-- **A value is equal to the collapsed one**, `NaN` being matched with itself, if and only if no
object in it repeats a key. -/
theorem alike_collapsed_iff {j : Json} :
    j.Alike j.collapsed ↔ ∀ ms ∈ j.objects, ms.keys.Nodup := by
  constructor
  · intro h
    induction j using Json.induction with
    | array items ih =>
      rw [collapsed_array, alike_array_iff, List.forall₂_map_right_iff, List.forall₂_same] at h
      rw [forall_objects_array]
      exact fun j hj => ih j hj (h j hj)
    | object members ih =>
      rw [collapsed_object, alike_object_iff, List.map_map, List.map_map] at h
      have hkeys : Members.keys members = (Members.latest members).keys := h.1
      have hnodup : (Members.keys members).Nodup := by
        rw [hkeys, Members.keys_latest]
        exact nodup_eraseDups _
      rw [Members.latest_eq_self_iff.mpr hnodup, List.forall₂_map_left_iff,
        List.forall₂_map_right_iff, List.forall₂_same] at h
      rw [forall_objects_object]
      exact ⟨hnodup, fun m hm => ih m hm (h.2 m hm)⟩
    | _ => exact List.forall_mem_nil _
  · intro h
    rw [collapsed_eq_self_iff.mpr h]
    exact alike_refl j

end Json

namespace Datum

/-! ### What a dict has under a key -/

/-- A dict whose keys are texts has under a key its first value. -/
theorem get?_dict_table (table : Members Datum) (key : Text) :
    (Datum.dict (table.map fun m => (.str m.1, m.2))).get? key = .ok (table.first? key) := by
  have hkey : ∀ m : Text × Datum, (m.1 == key) = decide (m.1 = key) := by
    intro m
    rw [Bool.eq_iff_iff, beq_iff_eq, decide_eq_true_iff]
  simp only [get?, List.find?_map, Option.map_map, Members.first?, Function.comp_def, hkey]

theorem get?_of_toPlain_object {members : Members Datum} {p : Datum}
    (h : (Datum.object members).toPlain = .ok p) (key : Text) :
    p.get? key = .ok ((members.last? key).map plain) := by
  rw [← plain_of_toPlain h, plain, get?_dict_table, Members.first?_latest, plainMembers_eq_map,
    Members.last?_map]

/-- **A dict has a key** if and only if the object has it. -/
theorem exists_get?_of_toPlain_object {members : Members Datum} {p : Datum}
    (h : (Datum.object members).toPlain = .ok p) {key : Text} :
    (∃ q, p.get? key = .ok (some q)) ↔ key ∈ members.keys := by
  rw [← not_not (a := key ∈ members.keys), ← Members.last?_eq_none_iff, ← ne_eq,
    Option.ne_none_iff_exists']
  simp [get?_of_toPlain_object h]

/-- **Under a key** a dict has the plain data of what the object gives for it. -/
theorem get?_eq_some_of_toPlain_object {members : Members Datum} {p : Datum}
    (h : (Datum.object members).toPlain = .ok p) {key : Text} {q : Datum} :
    p.get? key = .ok (some q) ↔
      ∃ v, (Datum.object members).get? key = .ok (some v) ∧ v.toPlain = .ok q := by
  have hleaves : ∀ m ∈ members, ∀ x ∈ m.2.leaves, x.isValue = true := by
    have hall := (toPlain_eq_ok_iff.mp h).1
    rwa [leaves_of_isContainer rfl, children, List.flatMap_map, List.forall_mem_flatMap] at hall
  rw [get?_of_toPlain_object h, get?, Except.ok.injEq, Option.map_eq_some_iff]
  simp only [Except.ok.injEq]
  refine exists_congr fun v => and_congr_right fun hv => ?_
  rw [toPlain_eq_ok_iff, and_iff_right (hleaves _ (Members.mem_of_last? hv))]

/-! ### There and back -/

theorem isValue_of_mem_leaves_toDatum (j : Json) : ∀ x ∈ j.toDatum.leaves, x.isValue = true := by
  induction j using Json.induction with
  | array items ih =>
    rw [leaves_of_isContainer rfl, Json.toDatum, itemsToData_eq_map, children, List.flatMap_map,
      List.forall_mem_flatMap]
    exact ih
  | object members ih =>
    rw [leaves_of_isContainer rfl, Json.toDatum, membersToData_eq_map, children, List.map_map,
      List.flatMap_map, List.forall_mem_flatMap]
    exact ih
  | _ => exact List.forall_mem_singleton.mpr rfl

theorem standsFor_collapsed (j : Json) : StandsFor j.toDatum.plain j.collapsed.toDatum := by
  induction j using Json.induction with
  | null => exact .nothing
  | bool b => exact .bool b
  | string s => exact .str s
  | number n =>
    cases n with
    | int n => exact .int n
    | double x => exact .float x
  | array items ih =>
    rw [Json.collapsed_array, Json.toDatum, Json.toDatum, itemsToData_eq_map, itemsToData_eq_map,
      plain, plainItems_eq_map, List.map_map, List.map_map]
    refine .list ?_
    rw [List.forall₂_map_left_iff, List.forall₂_map_right_iff, List.forall₂_same]
    exact ih
  | object members ih =>
    rw [Json.collapsed_object, Json.toDatum, Json.toDatum, membersToData_eq_map,
      membersToData_eq_map, plain, plainMembers_eq_map, Members.latest_map, Members.latest_map]
    simp only [List.map_map]
    refine .dict ?_ ?_
    · rw [List.forall₂_map_left_iff, List.forall₂_map_right_iff, List.forall₂_same]
      exact fun m hm => rfl
    · rw [List.forall₂_map_left_iff, List.forall₂_map_right_iff, List.forall₂_same]
      exact fun m hm => ih m (Members.mem_of_mem_latest hm)

theorem toPlain_toDatum (j : Json) : j.toDatum.toPlain = .ok j.toDatum.plain :=
  toPlain_eq_ok_iff.mpr ⟨isValue_of_mem_leaves_toDatum j, rfl⟩

/-- **There and back** a value is collapsed. -/
theorem toPlain_bind_toValue (j : Json) :
    j.toDatum.toPlain.bind toValue = .ok j.collapsed.toDatum := by
  rw [toPlain_toDatum]
  exact toValue_eq_ok_iff.mpr (standsFor_collapsed j)

end Datum

/-- **Repeated keys collapse** in the same way everywhere.  What comes back from the plain data of a
value is the collapsed value.  It is the value itself, or equal to it, if and only if no object in
it repeats a key, and nothing changes the second time.  A dict has the keys of the object, and under
each the plain data of what the object gives for it. -/
theorem Json.toPlain_collapses (j : Json) :
    j.toDatum.toPlain.bind Datum.toValue = .ok j.collapsed.toDatum ∧
      (j.collapsed = j ↔ ∀ ms ∈ j.objects, ms.keys.Nodup) ∧
      (j.Alike j.collapsed ↔ ∀ ms ∈ j.objects, ms.keys.Nodup) ∧
      j.collapsed.toDatum.toPlain.bind Datum.toValue = .ok j.collapsed.toDatum ∧
      ∀ members, j = .object members → ∃ p, j.toDatum.toPlain = .ok p ∧ ∀ key,
        ((∃ q, p.get? key = .ok (some q)) ↔ key ∈ Members.keys members) ∧
          ∀ q, p.get? key = .ok (some q) ↔
            ∃ v, j.toDatum.get? key = .ok (some v) ∧ v.toPlain = .ok q := by
  refine ⟨Datum.toPlain_bind_toValue j, collapsed_eq_self_iff, alike_collapsed_iff, ?_, ?_⟩
  · rw [Datum.toPlain_bind_toValue, collapsed_collapsed]
  · rintro members rfl
    have hplain := Datum.toPlain_toDatum (.object members)
    refine ⟨_, hplain, fun key => ⟨?_, fun q => ?_⟩⟩
    · rw [Json.toDatum, membersToData_eq_map] at hplain ⊢
      rw [Datum.exists_get?_of_toPlain_object hplain]
      simp [Members.keys]
    · rw [Json.toDatum] at hplain ⊢
      exact Datum.get?_eq_some_of_toPlain_object hplain

-- the first place and the last value; the object that is hidden leaves nothing behind
example : (Json.object [("a", .object [("x", .null)]), ("b", .null), ("a", .array [])]).collapsed
    = .object [("a", .array []), ("b", .null)] := by
  decide

end JsonLayout
