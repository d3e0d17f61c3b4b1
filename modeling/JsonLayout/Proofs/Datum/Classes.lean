import JsonLayout.Proofs.Datum.Limits
import JsonLayout.Proofs.Number.Exact
import Mathlib.Data.Set.Card

/-!
# Classes of equal values

Without `NaN`, equality of values is an equivalence: numbers are compared by their exact values, and
containers part by part.  A set keeps one value of each class that there is among its members, so
its size does not depend on their order, nor on how often they are there.

A comparison goes from part to part, and has no answer if that goes too deep.  Then a set may have
no members either.

## Main definitions

* `Json.Same`: equality of values.
* `Json.Comparable`: a value without `NaN`.
* `Comparable.classOf`, `Comparable.classCount`: the class of a value, and how many classes there
  are among values.
* `Json.staircase`: a value that is too deep to be compared.

## Main results

* `Json.alike_symm`, `Json.alike_trans`: values are alike both ways, and along a chain.
* `Comparable.length_distinct`: a set has a member for each class.
* `Comparable.equality_laws`: what equality is, and what sets are.
* `Comparable.not_equal?_self`: a value that has no answer when it is compared with an equal copy.
-/

namespace JsonLayout

/-! ### Lists -/

section Lists

variable {α : Type} {R : α → α → Prop} {as bs cs : List α}

theorem forall₂_symm_of_mem (h : ∀ a ∈ as, ∀ b, R a b → R b a) (hab : List.Forall₂ R as bs) :
    List.Forall₂ R bs as := by
  induction hab with
  | nil => exact .nil
  | cons hhead _ ih =>
    rw [List.forall_mem_cons] at h
    exact .cons (h.1 _ hhead) (ih h.2)

theorem forall₂_trans_of_mem (h : ∀ a ∈ as, ∀ b c, R a b → R b c → R a c)
    (hab : List.Forall₂ R as bs) (hbc : List.Forall₂ R bs cs) : List.Forall₂ R as cs := by
  induction hab generalizing cs with
  | nil => exact hbc
  | cons hhead _ ih =>
    rw [List.forall_mem_cons] at h
    cases hbc with
    | cons hhead' htail => exact .cons (h.1 _ _ hhead hhead') (ih h.2 htail)

/-- How many things there are in a list without repetitions. -/
theorem ncard_setOf_mem (h : as.Nodup) : {a | a ∈ as}.ncard = as.length := by
  classical
  rw [← List.coe_toFinset, Set.ncard_coe_finset, List.toFinset_card_of_nodup h]

end Lists

/-! ### Values that are alike -/

namespace Json

/-- Values are alike both ways. -/
theorem alike_symm {j k : Json} (h : j.Alike k) : k.Alike j := by
  induction j using Json.induction generalizing k with
  | null | bool | string =>
    cases h
    exact alike_refl _
  | number m =>
    cases h with
    | number hm =>
      rw [Number.alike_iff_worth?] at hm
      exact .number (Number.alike_iff_worth?.mpr hm.symm)
  | array items ih =>
    cases h with
    | array hitems => exact .array (forall₂_symm_of_mem (fun j hj _ => ih j hj) hitems)
  | object members ih =>
    cases h with
    | object hkeys hvalues =>
      refine .object hkeys.symm (forall₂_symm_of_mem ?_ hvalues)
      rw [List.forall_mem_map]
      exact fun m hm k => ih m hm

/-- Values are alike along a chain. -/
theorem alike_trans {j k l : Json} (h : j.Alike k) (h' : k.Alike l) : j.Alike l := by
  induction j using Json.induction generalizing k l with
  | null | bool | string =>
    cases h
    exact h'
  | number m =>
    cases h with
    | number hm =>
      cases h' with
      | number hn =>
        rw [Number.alike_iff_worth?] at hm hn
        exact .number (Number.alike_iff_worth?.mpr (hm.trans hn))
  | array items ih =>
    cases h with
    | array hitems =>
      cases h' with
      | array hitems' =>
        exact .array (forall₂_trans_of_mem (fun j hj _ _ => ih j hj) hitems hitems')
  | object members ih =>
    cases h with
    | object hkeys hvalues =>
      cases h' with
      | object hkeys' hvalues' =>
        refine .object (hkeys.trans hkeys') (forall₂_trans_of_mem ?_ hvalues hvalues')
        rw [List.forall_mem_map]
        exact fun m hm k l => ih m hm

/-! ### Equality -/

/-- **Equality of values.** -/
def Same (j k : Json) : Prop := j.toDatum.same k.toDatum = true

instance : DecidableRel Same := fun j k =>
  inferInstanceAs (Decidable (j.toDatum.same k.toDatum = true))

/-- Numbers are equal if they are worth something, and the same. -/
theorem same_number_iff {m n : Number} :
    (number m).Same (number n) ↔ ∃ v, m.worth? = some v ∧ n.worth? = some v := by
  rw [Same, toDatum, toDatum, Datum.same, Number.same_toDatum, Number.same_iff_exists_worth?]

/-- Arrays are equal if their items are, one by one. -/
theorem same_array_iff {items items' : List Json} :
    (array items).Same (array items') ↔ List.Forall₂ Same items items' := by
  rw [Same, toDatum, toDatum, Datum.same, Datum.itemsSame_eq_true_iff, itemsToData_eq_map,
    itemsToData_eq_map, forall₂_same_toDatum_iff]
  rfl

/-- Objects are equal if their members are, one by one. -/
theorem same_object_iff {members members' : List (Text × Json)} :
    (object members).Same (object members') ↔
      List.Forall₂ (fun m m' => m.1 = m'.1 ∧ m.2.Same m'.2) members members' := by
  rw [Same, toDatum, toDatum, Datum.same, membersToData_eq_map, membersToData_eq_map]
  induction members generalizing members' with
  | nil => cases members' <;> simp [Datum.membersSame]
  | cons m members ih =>
    cases members' with
    | nil => simp [Datum.membersSame]
    | cons m' members' =>
      rw [List.map_cons, List.map_cons, Datum.membersSame, Bool.and_eq_true, Bool.and_eq_true,
        beq_iff_eq, ih, List.forall₂_cons, Same]

/-- A value without `NaN`. -/
abbrev Comparable := {j : Json // ∀ n ∈ j.numbers, n ≠ .double .nan}

namespace Comparable

theorem same_iff_alike (j : Comparable) {k : Json} : j.1.Same k ↔ j.1.Alike k :=
  (alike_iff_same j.2).symm

/-- **Equality is an equivalence.** -/
instance setoid : Setoid Comparable where
  r j k := j.1.Same k.1
  iseqv := by
    refine ⟨fun j => ?_, fun {j k} h => ?_, fun {j k l} h h' => ?_⟩
    · exact j.same_iff_alike.mpr (alike_refl j.1)
    · rw [same_iff_alike] at h ⊢
      exact alike_symm h
    · rw [same_iff_alike] at h h' ⊢
      exact alike_trans h h'

/-- **The class of a value**: it, and what it is equal to. -/
def classOf (j : Comparable) : Quotient setoid := Quotient.mk setoid j

theorem classOf_eq_iff {j k : Comparable} : j.classOf = k.classOf ↔ j.1.Same k.1 :=
  Quotient.eq (r := setoid)

/-- How many classes there are among values. -/
noncomputable def classCount (js : List Comparable) : ℕ :=
  {c | ∃ j ∈ js, j.classOf = c}.ncard

/-- A value as a piece of data. -/
def toDatum (j : Comparable) : Datum := j.1.toDatum

end Comparable

end Json

/-! ### Sets -/

/-- The last piece of data is one of the distinct ones if nothing before it is equal to it. -/
theorem Datum.distinct_concat (ds : List Datum) (d : Datum) :
    distinct (ds ++ [d])
      = if (distinct ds).any d.same then distinct ds else distinct ds ++ [d] := by
  rw [distinct, distinct, List.foldl_append, List.any_reverse, ← List.reverse_cons]
  exact apply_ite List.reverse _ _ _

namespace Json.Comparable

/-- **The distinct values** are one of each class. -/
theorem exists_distinct (js : List Comparable) :
    ∃ ks : List Comparable, Datum.distinct (js.map toDatum) = ks.map toDatum ∧
      (ks.map classOf).Nodup ∧ ∀ c, c ∈ ks.map classOf ↔ c ∈ js.map classOf := by
  induction js using List.reverseRecOn with
  | nil => exact ⟨[], rfl, List.nodup_nil, fun c => Iff.rfl⟩
  | append_singleton js j ih =>
    obtain ⟨ks, hks, hnodup, hclasses⟩ := ih
    have hany : (ks.map toDatum).any j.toDatum.same = true ↔ j.classOf ∈ ks.map classOf := by
      rw [List.any_map, List.any_eq_true, List.mem_map]
      exact exists_congr fun k => and_congr_right fun _ => (eq_comm.trans classOf_eq_iff).symm
    rw [List.map_append, List.map_singleton, Datum.distinct_concat, hks]
    split
    · next hold =>
      rw [hany] at hold
      refine ⟨ks, rfl, hnodup, fun c => ?_⟩
      rw [List.map_append, List.mem_append, ← hclasses, List.map_singleton, List.mem_singleton]
      refine (or_iff_left_of_imp ?_).symm
      rintro rfl
      exact hold
    · next hnew =>
      rw [hany] at hnew
      refine ⟨ks ++ [j], by rw [List.map_append, List.map_singleton], ?_, fun c => ?_⟩
      · rw [List.map_append, List.map_singleton]
        exact hnodup.append (List.nodup_singleton _) (List.disjoint_singleton.mpr hnew)
      · rw [List.map_append, List.map_append, List.mem_append, List.mem_append, hclasses]

/-- **A set has a member for each class.** -/
theorem length_distinct (js : List Comparable) :
    (Datum.distinct (js.map toDatum)).length = classCount js := by
  obtain ⟨ks, hks, hnodup, hclasses⟩ := exists_distinct js
  have hset : {c | ∃ j ∈ js, j.classOf = c} = {c | c ∈ ks.map classOf} := by
    ext c
    rw [Set.mem_ofPred_eq, Set.mem_ofPred_eq, hclasses, List.mem_map]
  rw [hks, classCount, hset, ncard_setOf_mem hnodup, List.length_map, List.length_map]

theorem classCount_congr {js js' : List Comparable} (h : ∀ j, j ∈ js ↔ j ∈ js') :
    classCount js = classCount js' := by
  simp only [classCount, h]

end Json.Comparable

/-! ### Values that are too deep -/

namespace Json

/-- A value inside arrays. -/
def inArrays : Nat → Json → Json
  | 0, j => j
  | n + 1, j => .array [inArrays n j]

/-- A value inside objects. -/
def inObjects : Nat → Json → Json
  | 0, j => j
  | n + 1, j => .object [("k", inObjects n j)]

/-- A value inside arrays and objects that take `837 + i` nested steps to be compared. -/
def stair (i : ℕ) : Json :=
  inArrays ((837 + i - 5 * ((837 + i) % 4)) / 4) (inObjects ((837 + i) % 4) (.bool true))

/-- Values of growing depth: the last are too deep to be compared, and the first are not. -/
def staircase : Json := .array ((List.range 171).map stair)

theorem numbers_inArrays (n : Nat) (j : Json) : (inArrays n j).numbers = j.numbers := by
  induction n with
  | zero => rfl
  | succ n ih => rw [inArrays, numbers_array, List.flatMap_singleton, ih]

theorem numbers_inObjects (n : Nat) (j : Json) : (inObjects n j).numbers = j.numbers := by
  induction n with
  | zero => rfl
  | succ n ih => rw [inObjects, numbers_object, List.flatMap_singleton, ih]

theorem numbers_stair (i : ℕ) : (stair i).numbers = [] := by
  rw [stair, numbers_inArrays, numbers_inObjects]
  rfl

theorem numbers_staircase : staircase.numbers = [] := by
  rw [staircase, numbers_array, List.flatMap_eq_nil_iff, List.forall_mem_map]
  exact fun i _ => numbers_stair i

/-- A value without numbers is equal to itself. -/
theorem same_self_of_numbers_eq_nil {j : Json} (h : j.numbers = []) : j.Same j := by
  refine (alike_iff_same ?_).mp (alike_refl j)
  rw [h]
  exact List.forall_mem_nil _

/-- Arrays inside one another take four steps for each level. -/
theorem comparesBeyond_inArrays {room n : Nat} (h : room < 4 * n) (j : Json) :
    (inArrays n j).toDatum.comparesBeyond room (inArrays n j).toDatum = true := by
  induction n generalizing room with
  | zero => omega
  | succ n ih =>
    rw [inArrays, toDatum, itemsToData_eq_map, List.map_singleton, Datum.comparesBeyond,
      Bool.or_eq_true, decide_eq_true_eq, Datum.itemsBeyond, Bool.or_eq_true]
    by_cases hroom : room < 4
    · exact .inl hroom
    · exact .inr (.inl (ih (by omega)))

end Json

/-- One item that goes too deep is enough behind items that are equal to themselves. -/
theorem Datum.itemsBeyond_self {room : Nat} {xs : List Datum} (hsame : ∀ x ∈ xs, x.same x = true)
    {x : Datum} (hx : x ∈ xs) (hbeyond : x.comparesBeyond room x = true) :
    itemsBeyond room xs xs = true := by
  induction xs with
  | nil => cases hx
  | cons y xs ih =>
    rw [List.forall_mem_cons] at hsame
    rw [itemsBeyond, Bool.or_eq_true, Bool.and_eq_true]
    rcases List.mem_cons.mp hx with rfl | hmem
    · exact .inl hbeyond
    · exact .inr ⟨hsame.1, ih hsame.2 hmem⟩

namespace Json

theorem comparesBeyond_staircase :
    staircase.toDatum.comparesBeyond Datum.stepLimit staircase.toDatum = true := by
  have hsame : ∀ x ∈ ((List.range 171).map stair).map toDatum, x.same x = true := by
    rw [List.forall_mem_map, List.forall_mem_map]
    exact fun i _ => same_self_of_numbers_eq_nil (numbers_stair i)
  have hlast : (stair 170).toDatum ∈ ((List.range 171).map stair).map toDatum :=
    List.mem_map_of_mem (List.mem_map_of_mem (List.mem_range.mpr (by omega)))
  rw [staircase, toDatum, itemsToData_eq_map, Datum.comparesBeyond, Bool.or_eq_true]
  refine .inr (Datum.itemsBeyond_self hsame hlast ?_)
  exact comparesBeyond_inArrays (n := 248) (by decide) (inObjects 3 (.bool true))

end Json

/-! ### Equality and sets -/

namespace Json.Comparable

/-- **What equality is, and what sets are.**  For values without `NaN`,

* equality is an equivalence,
* numbers are equal if and only if they have the same exact value,
* arrays are equal if and only if their items are, one by one, and so are objects with their
  members,
* a comparison says whether values are equal, unless the first one has more than 197 levels and the
  comparison goes too deep,
* a set has a member for each class of the values that it is made of, unless one of these has more
  than 197 levels and goes too deep, and
* so the order of the values makes no difference, nor does it whether they are repeated. -/
theorem equality_laws :
    (Equivalence fun j k : Comparable => j.1.Same k.1) ∧
    (∀ m n : Number, (number m).Same (number n) ↔ ∃ v, m.worth? = some v ∧ n.worth? = some v) ∧
    (∀ items items' : List Json,
      (array items).Same (array items') ↔ List.Forall₂ Same items items') ∧
    (∀ members members' : List (Text × Json), (object members).Same (object members') ↔
      List.Forall₂ (fun m m' => m.1 = m'.1 ∧ m.2.Same m'.2) members members') ∧
    (∀ j k : Comparable, j.toDatum.equal? k.toDatum = .ok (decide (j.1.Same k.1)) ∨
      197 < j.1.nesting ∧ j.toDatum.equal? k.toDatum = .error .comparedTooDeep) ∧
    (∀ js : List Comparable,
      (∃ members, Datum.set? (js.map toDatum) = .ok members ∧ members.length = classCount js) ∨
        (∃ j ∈ js, 197 < j.1.nesting) ∧
          (Datum.set? (js.map toDatum) = .error .comparedTooDeep ∨
            Datum.set? (js.map toDatum) = .error .hashedTooDeep)) ∧
    ∀ js js' : List Comparable, (∀ j, j ∈ js ↔ j ∈ js') → classCount js = classCount js' := by
  refine ⟨setoid.iseqv, fun m n => same_number_iff, fun items items' => same_array_iff,
    fun members members' => same_object_iff, fun j k => ?_, fun js => ?_,
    fun js js' h => classCount_congr h⟩
  · have hsame : decide (j.1.Same k.1) = j.toDatum.same k.toDatum := Bool.decide_eq_true
    rw [hsame]
    exact equal?_cases j.1 k.toDatum
  · have hdata : js.map toDatum = (js.map Subtype.val).map Json.toDatum := by
      rw [List.map_map]
      rfl
    rcases set?_cases (js.map Subtype.val) with hset | ⟨hdeep, hset⟩
    · rw [← hdata] at hset
      exact .inl ⟨_, hset, length_distinct js⟩
    · rw [← hdata] at hset
      obtain ⟨j, hj, hnesting⟩ := hdeep
      obtain ⟨j, hmem, rfl⟩ := List.mem_map.mp hj
      exact .inr ⟨⟨j, hmem, hnesting⟩, hset⟩

/-- One as an integer and as a double, the two zeros in arrays, and something else. -/
def mixed : List Comparable :=
  [⟨.number (.int 1), by decide +kernel⟩,
    ⟨.number (.double (.ofDecimal false ⟨1, 0⟩)), by decide +kernel⟩,
    ⟨.array [.number (.int 0)], by decide +kernel⟩,
    ⟨.array [.number (.double (.ofDecimal true ⟨0, 0⟩))], by decide +kernel⟩,
    ⟨.object [("a", .bool true)], by decide +kernel⟩]

/-- There are three classes, also if the values come backwards and once more. -/
theorem equality_laws_of_mixed :
    classCount mixed = 3 ∧ classCount (mixed.reverse ++ mixed) = 3 := by
  obtain ⟨-, -, -, -, -, hset, hcongr⟩ := equality_laws
  have hlength : ((Datum.set? (mixed.map toDatum)).toOption.map List.length) = some 3 := by
    decide +kernel
  have hcount : classCount mixed = 3 := by
    rcases hset mixed with ⟨members, hmembers, hclasses⟩ | ⟨-, herror | herror⟩
    · rw [hmembers] at hlength
      exact hclasses.symm.trans (Option.some.inj hlength)
    · rw [herror] at hlength
      cases hlength
    · rw [herror] at hlength
      cases hlength
  refine ⟨hcount, (hcongr _ mixed fun j => ?_).trans hcount⟩
  rw [List.mem_append, List.mem_reverse, or_self]

/-- **A value may be too deep** to be compared even with an equal copy. -/
theorem not_equal?_self : ¬ ∀ j : Comparable, j.toDatum.equal? j.toDatum = .ok true := by
  intro h
  have hcomparable : ∀ n ∈ staircase.numbers, n ≠ .double .nan := by
    rw [numbers_staircase]
    exact List.forall_mem_nil _
  have hequal : staircase.toDatum.equal? staircase.toDatum = .ok true := h ⟨staircase, hcomparable⟩
  rw [Datum.equal?, if_pos comparesBeyond_staircase] at hequal
  cases hequal

end Json.Comparable

end JsonLayout
