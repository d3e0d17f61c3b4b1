import JsonLayout.Proofs.Datum.ToPlain
import JsonLayout.Proofs.Datum.ToValue

/-!
# Plain data there and back

Plain data that have a JSON value come back from it as they were, but for tuples, which come back as
lists.  On the way there a container is finished after its parts, and on the way back before them;
either way the parts keep their order, and as no key comes twice in a dict, none is lost.

## Main definitions

* `Datum.IsPlain`: plain data of the types that have JSON values.
* `Datum.listed`: data with lists in place of tuples.

## Main results

* `Datum.toPlain_of_standsFor`: the plain data of a value that stands for plain data.
* `Datum.toValue_bind_toPlain`: the way there and back.
-/

namespace JsonLayout

namespace Datum

/-- **Plain data of the types that have JSON values.**  The keys of a dict are distinct texts. -/
inductive IsPlain : Datum → Prop where
  | nothing : IsPlain .nothing
  | bool (b : Bool) : IsPlain (.bool b)
  | int (n : Int) : IsPlain (.int n)
  | float (x : Double) : IsPlain (.float x)
  | str (s : Text) : IsPlain (.str s)
  | list {items : List Datum} (h : ∀ d ∈ items, IsPlain d) : IsPlain (.list items)
  | tuple {items : List Datum} (h : ∀ d ∈ items, IsPlain d) : IsPlain (.tuple items)
  | dict (table : Members Datum) (distinct : table.keys.Nodup) (h : ∀ m ∈ table, IsPlain m.2) :
      IsPlain (.dict (table.map fun m => (.str m.1, m.2)))

mutual

/-- **Data with lists in place of tuples**, at any depth. -/
def listed : Datum → Datum
  | .list items => .list (itemsListed items)
  | .tuple items => .list (itemsListed items)
  | .dict entries => .dict (entriesListed entries)
  | d => d

/-- Items with lists in place of tuples. -/
def itemsListed : List Datum → List Datum
  | [] => []
  | d :: items => d.listed :: itemsListed items

/-- Entries of a dict with lists in place of the tuples in their values. -/
def entriesListed : List (Datum × Datum) → List (Datum × Datum)
  | [] => []
  | (key, d) :: entries => (key, d.listed) :: entriesListed entries

end

theorem itemsListed_eq_map (items : List Datum) : itemsListed items = items.map listed := by
  induction items with
  | nil => rfl
  | cons d items ih => rw [itemsListed, ih, List.map_cons]

theorem entriesListed_eq_map (entries : List (Datum × Datum)) :
    entriesListed entries = entries.map fun e => (e.1, e.2.listed) := by
  induction entries with
  | nil => rfl
  | cons e entries ih => rw [entriesListed, ih, List.map_cons]

/-! ### There -/

/-- Nothing is wrong with plain data. -/
theorem IsPlain.faults_eq_nil {d : Datum} (h : d.IsPlain) : d.faults = [] := by
  induction h with
  | list h ih | tuple h ih =>
    rw [faults_eq_nil_iff_parts, plainParts, List.forall_mem_map]
    exact ⟨trivial, ih⟩
  | dict table distinct h ih =>
    rw [faults_eq_nil_iff_parts, plainParts, List.forall_mem_map, List.forall_mem_map, Supported,
      List.forall_mem_map]
    exact ⟨fun m _ => ⟨m.1, rfl⟩, ih⟩
  | _ => rfl

theorem IsPlain.exists_toValue {d : Datum} (h : d.IsPlain) : ∃ v, d.toValue = .ok v := by
  rw [← failure?_eq_none_iff, failure?_toValue, h.faults_eq_nil, List.head?_nil]

/-! ### And back -/

/-- An array that stands for a list or a tuple. -/
theorem toPlain_array_of_standsFor {items vs : List Datum}
    (hitems : ∀ d ∈ items, ∀ v, StandsFor d v → v.toPlain = .ok d.listed)
    (h : List.Forall₂ StandsFor items vs) :
    (Datum.array vs).toPlain = .ok (.list (itemsListed items)) := by
  rw [toPlain_array_eq_ok_iff]
  refine ⟨_, ?_, rfl⟩
  rw [itemsListed_eq_map, List.forall₂_map_right_iff]
  exact (forall₂_imp_of_mem hitems h).flip

/-- An object that stands for a dict.  No key comes twice, so each has its only value. -/
theorem toPlain_object_of_standsFor {table : Members Datum} {ms : List (Text × Datum)}
    (distinct : table.keys.Nodup)
    (htable : ∀ m ∈ table, ∀ v, StandsFor m.2 v → v.toPlain = .ok m.2.listed)
    (keys : List.Forall₂ (fun m n => Datum.str m.1 = .str n.1) table ms)
    (values : List.Forall₂ (fun m n => StandsFor m.2 n.2) table ms) :
    (Datum.object ms).toPlain = .ok (.dict (table.map fun m => (.str m.1, m.2.listed))) := by
  rw [toPlain_object_eq_ok_iff]
  refine ⟨table.map fun m => (m.1, m.2.listed), ?_, ?_⟩
  · rw [List.forall₂_map_right_iff]
    exact (forall₂_imp_of_mem
      (fun m hm n h => ⟨htable m hm n.2 h.2, (Datum.str.inj h.1).symm⟩)
      (forall₂_and_iff.mpr ⟨keys, values⟩)).flip
  · rw [Members.latest_map, Members.latest_eq_self_iff.mpr distinct, List.map_map]
    rfl

/-- **The plain data of a value** that stands for plain data are those, but for the tuples. -/
theorem toPlain_of_standsFor {d v : Datum} (hd : d.IsPlain) (h : StandsFor d v) :
    v.toPlain = .ok d.listed := by
  induction hd generalizing v with
  | list hitems ih =>
    obtain ⟨vs, hvs, rfl⟩ := standsFor_list_iff.mp h
    exact toPlain_array_of_standsFor (fun d hd _ => ih d hd) hvs
  | tuple hitems ih =>
    obtain ⟨vs, hvs, rfl⟩ := standsFor_tuple_iff.mp h
    exact toPlain_array_of_standsFor (fun d hd _ => ih d hd) hvs
  | dict table distinct htable ih =>
    obtain ⟨ms, ⟨keys, values⟩, rfl⟩ := standsFor_dict_iff.mp h
    rw [List.forall₂_map_left_iff] at keys values
    rw [toPlain_object_of_standsFor distinct (fun m hm _ => ih m hm) keys values, listed,
      entriesListed_eq_map, List.map_map]
    rfl
  | _ =>
    cases h with
    | value h => cases h
    | _ => rfl

/-- **There and back.**  Plain data have a JSON value, and the plain data of that are they, with
lists in place of tuples. -/
theorem toValue_bind_toPlain {d : Datum} (h : d.IsPlain) :
    d.toValue.bind toPlain = .ok d.listed := by
  obtain ⟨v, hv⟩ := h.exists_toValue
  rw [hv]
  exact toPlain_of_standsFor h (toValue_eq_ok_iff.mp hv)

/-- A tuple in a dict comes back as a list, and a truth value next to a number as such. -/
theorem toValue_bind_toPlain_nested :
    let d : Datum := .dict [(.str "a", .tuple [.bool true, .int 1, .list []]), (.str "b", .nothing)]
    d.IsPlain ∧ d.toValue.bind toPlain
      = .ok (.dict [(.str "a", .list [.bool true, .int 1, .list []]), (.str "b", .nothing)]) := by
  have htuple : (Datum.tuple [.bool true, .int 1, .list []]).IsPlain := by
    refine .tuple ?_
    simp only [List.forall_mem_cons]
    exact ⟨.bool true, .int 1, .list (List.forall_mem_nil _), List.forall_mem_nil _⟩
  have hdict : (Datum.dict
      [(.str "a", .tuple [.bool true, .int 1, .list []]), (.str "b", .nothing)]).IsPlain := by
    refine .dict [("a", .tuple [.bool true, .int 1, .list []]), ("b", .nothing)] (by decide) ?_
    simp only [List.forall_mem_cons]
    exact ⟨htuple, .nothing, List.forall_mem_nil _⟩
  exact ⟨hdict, toValue_bind_toPlain hdict⟩

end Datum

end JsonLayout
