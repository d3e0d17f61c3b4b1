import JsonLayout.Proofs.Attempt
import JsonLayout.Proofs.Datum.Filling

/-!
# From JSON values to plain data

The conversion goes through one container after another, and through all parts of a container before
those of the next.  A container is gone through before those in it, and of the containers in one the
last comes first, so the order is forward in a container and backward between them.  Plain data in
place of a value stop it; members that a later one hides are gone through like all others.

## Main definitions

* `Datum.visited`: the arrays and objects of a piece of data in the order of the conversion.
* `Datum.leaves`: what stands in them that is no array or object.
* `Datum.FirstStray`: the plain data that are met first.

## Main results

* `Datum.toPlain_eq_ok_iff`: when there are plain data, and which.
* `Datum.toPlain_array_eq_ok_iff`, `Datum.toPlain_object_eq_ok_iff`: those of a container from those
  of its parts.
* `Datum.toPlain_reports_first_stray`: what the conversion fails with.
-/

namespace JsonLayout

namespace Datum

/-! ### The tree of arrays and objects -/

theorem size_le_itemsSize {d : Datum} {items : List Datum} (h : d ∈ items) :
    d.size ≤ itemsSize items := by
  induction items with
  | nil => cases h
  | cons c items ih =>
    rw [itemsSize]
    rcases List.mem_cons.mp h with rfl | h
    · exact Nat.le_add_right _ _
    · exact Nat.le_trans (ih h) (Nat.le_add_left _ _)

/-- **Induction over arrays and objects**: what holds of a piece of data as soon as it holds of the
parts of it that a JSON value has, holds of all. -/
@[elab_as_elim]
theorem induction_children {motive : Datum → Prop}
    (children : ∀ d : Datum, (∀ c ∈ d.children, motive c) → motive d) (d : Datum) : motive d :=
  children d fun c _ => induction_children children c
termination_by d.size
decreasing_by exact Nat.lt_of_le_of_lt (size_le_itemsSize ‹_›) (itemsSize_children_lt d)

mutual

/-- **The arrays and objects** in a piece of data in the order in which the conversion goes through
them: each comes before those in it, and what is in a later part of it comes before what is in an
earlier one.  Plain data are not looked into. -/
def visited : Datum → List Datum
  | .array items => .array items :: itemsVisited items
  | .object members => .object members :: membersVisited members
  | _ => []

/-- The arrays and objects in items, those in the last item first. -/
def itemsVisited : List Datum → List Datum
  | [] => []
  | d :: items => itemsVisited items ++ d.visited

/-- The arrays and objects in the values of members, those in the last member first. -/
def membersVisited : List (Text × Datum) → List Datum
  | [] => []
  | (_, d) :: members => membersVisited members ++ d.visited

end

mutual

/-- **The leaves** of a tree of arrays and objects, members included that a later one hides. -/
def leaves : Datum → List Datum
  | .array items => itemsLeaves items
  | .object members => membersLeaves members
  | d => [d]

/-- The leaves of all items. -/
def itemsLeaves : List Datum → List Datum
  | [] => []
  | d :: items => d.leaves ++ itemsLeaves items

/-- The leaves of the values of all members. -/
def membersLeaves : List (Text × Datum) → List Datum
  | [] => []
  | (_, d) :: members => d.leaves ++ membersLeaves members

end

theorem itemsVisited_eq_flatMap (items : List Datum) :
    itemsVisited items = items.reverse.flatMap visited := by
  induction items with
  | nil => rfl
  | cons d items ih => rw [itemsVisited, ih, List.reverse_cons, List.flatMap_append,
      List.flatMap_singleton]

theorem membersVisited_eq_flatMap (members : List (Text × Datum)) :
    membersVisited members = (members.map (·.2)).reverse.flatMap visited := by
  induction members with
  | nil => rfl
  | cons m members ih => rw [membersVisited, ih, List.map_cons, List.reverse_cons,
      List.flatMap_append, List.flatMap_singleton]

theorem visited_of_isContainer {c : Datum} (hc : c.isContainer = true) :
    c.visited = c :: c.children.reverse.flatMap visited := by
  cases c with
  | array items => rw [visited, itemsVisited_eq_flatMap, children]
  | object members => rw [visited, membersVisited_eq_flatMap, children]
  | _ => exact absurd hc Bool.false_ne_true

theorem visited_of_not_isContainer {d : Datum} (hd : d.isContainer = false) : d.visited = [] := by
  cases d with
  | array items => exact absurd hd.symm Bool.false_ne_true
  | object members => exact absurd hd.symm Bool.false_ne_true
  | _ => rfl

theorem children_of_not_isContainer {d : Datum} (hd : d.isContainer = false) :
    d.children = [] := by
  cases d with
  | array items => exact absurd hd.symm Bool.false_ne_true
  | object members => exact absurd hd.symm Bool.false_ne_true
  | _ => rfl

theorem isValue_of_isContainer {d : Datum} (hd : d.isContainer = true) : d.isValue = true := by
  cases d with
  | array items => rfl
  | object members => rfl
  | _ => exact absurd hd Bool.false_ne_true

theorem leaves_of_isContainer {c : Datum} (hc : c.isContainer = true) :
    c.leaves = c.children.flatMap leaves := by
  cases c with
  | array items =>
    rw [leaves, children]
    induction items with
    | nil => rfl
    | cons d items ih => rw [itemsLeaves, ih rfl, List.flatMap_cons]
  | object members =>
    rw [leaves, children]
    induction members with
    | nil => rfl
    | cons m members ih => rw [membersLeaves, ih rfl, List.map_cons, List.flatMap_cons]
  | _ => exact absurd hc Bool.false_ne_true

theorem leaves_of_not_isContainer {d : Datum} (hd : d.isContainer = false) : d.leaves = [d] := by
  cases d with
  | array items => exact absurd hd.symm Bool.false_ne_true
  | object members => exact absurd hd.symm Bool.false_ne_true
  | _ => rfl

/-- Only the arrays and objects among some data have any in them. -/
theorem flatMap_visited_filter (ds : List Datum) :
    (ds.filter isContainer).flatMap visited = ds.flatMap visited := by
  induction ds with
  | nil => rfl
  | cons d ds ih =>
    rw [List.filter_cons, List.flatMap_cons]
    split
    · rw [List.flatMap_cons, ih]
    · next hd =>
      rw [visited_of_not_isContainer (Bool.eq_false_iff.mpr hd), List.nil_append, ih]

/-! ### What the conversion fails with -/

/-- What a part of a container stops the conversion with, if it is plain data. -/
def strayFault? (d : Datum) : Option DataError :=
  if d.isValue then none else some (.ofStray .notValue d)

theorem strayFault?_of_isContainer {d : Datum} (hd : d.isContainer = true) :
    d.strayFault? = none := by
  rw [strayFault?, if_pos (isValue_of_isContainer hd)]

theorem failure?_plainScalar {d : Datum} (hd : d.isContainer = false) :
    failure? d.plainScalar = d.strayFault? := by
  cases d with
  | array items => exact absurd hd.symm Bool.false_ne_true
  | object members => exact absurd hd.symm Bool.false_ne_true
  | _ => rfl

theorem failure?_add (filling : Filling) (target : Nat) (part : Text × Datum) :
    failure? (filling.add target part) = part.2.strayFault? := by
  rw [Filling.add]
  split
  · next hc => rw [strayFault?_of_isContainer hc, failure?]
  · next hc =>
    rw [← failure?_plainScalar (Bool.eq_false_iff.mpr hc)]
    cases part.2.plainScalar <;> rfl

/-- **The parts of one container** fail with the first of them that is plain data. -/
theorem failure?_foldlM_add (filling : Filling) (target : Nat) (parts : List (Text × Datum)) :
    failure? (parts.foldlM (Filling.add target) filling)
      = (parts.map (·.2)).findSome? strayFault? := by
  induction parts generalizing filling with
  | nil => rfl
  | cons part parts ih =>
    rw [List.foldlM_cons, List.map_cons, List.findSome?_cons, ← failure?_add filling target part]
    cases filling.add target part with
    | error e => rfl
    | ok next => exact ih next

/-- What a container itself stops the conversion with: its first part that is plain data. -/
def partsFault? (c : Datum) : Option DataError := c.children.findSome? strayFault?

theorem findSome?_visited (d : Datum) (others : List Datum) :
    (d.visited ++ others).findSome? partsFault?
      = d.partsFault?.or
          ((d.children.reverse.flatMap visited ++ others).findSome? partsFault?) := by
  cases hd : d.isContainer with
  | true =>
    rw [visited_of_isContainer hd, List.cons_append, List.findSome?_cons]
    cases d.partsFault? <;> rfl
  | false =>
    rw [visited_of_not_isContainer hd, partsFault?, children_of_not_isContainer hd]
    rfl

/-- **A run** fails with the first container, in the order of the conversion, that has plain data
among its parts. -/
theorem failure?_run (filling : Filling) :
    failure? filling.run
      = ((filling.waiting.map (·.1)).flatMap visited).findSome? partsFault? := by
  fun_induction Filling.run filling with
  | case1 filling hwaiting =>
    rw [hwaiting]
    rfl
  | case2 filling source target waiting hwaiting e hadd =>
    have hfault := failure?_foldlM_add { filling with waiting } target source.keyedParts
    rw [hadd, map_keyedParts, ← partsFault?] at hfault
    rw [hwaiting, List.map_cons, List.flatMap_cons, findSome?_visited, ← hfault]
    rfl
  | case3 filling source target waiting hwaiting next hadd ih =>
    have hfault := failure?_foldlM_add { filling with waiting } target source.keyedParts
    rw [hadd, map_keyedParts, ← partsFault?] at hfault
    rw [ih, Filling.waiting_foldlM hadd, hwaiting, List.map_cons, List.flatMap_cons,
      findSome?_visited, ← hfault, failure?, Option.none_or, map_keyedParts, List.flatMap_append,
      ← List.filter_reverse, flatMap_visited_filter]

/-- **The conversion of a container** fails with the first container in it that has plain data among
its parts. -/
theorem failure?_toPlain {c : Datum} (hc : c.isContainer = true) :
    failure? c.toPlain = c.visited.findSome? partsFault? := by
  have hrun := failure?_run ⟨#[.opening c], [(c, 0)]⟩
  rw [List.map_singleton, List.flatMap_singleton] at hrun
  rw [toPlain, if_pos hc, ← hrun]
  cases Filling.run ⟨#[.opening c], [(c, 0)]⟩ <;> rfl

theorem toPlain_of_not_isContainer {d : Datum} (hd : d.isContainer = false) :
    d.toPlain = d.plainScalar := by
  rw [toPlain, hd, if_neg Bool.false_ne_true]

/-! ### When there are plain data -/

theorem partsFault?_eq_none_iff {c : Datum} :
    c.partsFault? = none ↔ ∀ d ∈ c.children, d.isValue = true := by
  rw [partsFault?, List.findSome?_eq_none_iff]
  refine forall₂_congr fun d _ => ?_
  rw [strayFault?]
  cases d.isValue <;> simp

/-- All leaves are values if and only if the data themselves are one, and so are all parts of the
containers in them. -/
theorem forall_leaves_iff {d : Datum} :
    (∀ x ∈ d.leaves, x.isValue = true) ↔
      d.isValue = true ∧ ∀ c ∈ d.visited, ∀ x ∈ c.children, x.isValue = true := by
  induction d using induction_children with
  | children d ih =>
    cases hd : d.isContainer with
    | true =>
      simp only [leaves_of_isContainer hd, visited_of_isContainer hd, isValue_of_isContainer hd,
        List.forall_mem_flatMap, List.forall_mem_cons, List.mem_reverse, true_and]
      rw [← forall₂_and]
      exact forall₂_congr ih
    | false => simp [leaves_of_not_isContainer hd, visited_of_not_isContainer hd]

/-- **There are plain data** if and only if all leaves are values. -/
theorem exists_toPlain_iff {d : Datum} :
    (∃ p, d.toPlain = .ok p) ↔ ∀ x ∈ d.leaves, x.isValue = true := by
  rw [← failure?_eq_none_iff, forall_leaves_iff]
  cases hd : d.isContainer with
  | true =>
    rw [failure?_toPlain hd, isValue_of_isContainer hd, List.findSome?_eq_none_iff]
    simp only [partsFault?_eq_none_iff, true_and]
  | false =>
    rw [toPlain_of_not_isContainer hd, failure?_plainScalar hd, strayFault?,
      visited_of_not_isContainer hd]
    cases d.isValue <;> simp

/-- **The plain data** are those of the recursion. -/
theorem plain_of_toPlain {d p : Datum} (h : d.toPlain = .ok p) : d.plain = p := by
  cases hd : d.isContainer with
  | true =>
    rw [toPlain, if_pos hd] at h
    cases hrun : Filling.run ⟨#[.opening d], [(d, 0)]⟩ with
    | error e =>
      rw [hrun] at h
      cases h
    | ok drafts =>
      rw [hrun] at h
      rw [← readAll_of_run hd hrun]
      exact Except.ok.inj h
  | false =>
    rw [toPlain_of_not_isContainer hd] at h
    exact plain_of_plainScalar h

theorem toPlain_eq_ok_iff {d p : Datum} :
    d.toPlain = .ok p ↔ (∀ x ∈ d.leaves, x.isValue = true) ∧ d.plain = p := by
  constructor
  · intro h
    exact ⟨exists_toPlain_iff.mp ⟨p, h⟩, plain_of_toPlain h⟩
  · rintro ⟨hleaves, rfl⟩
    obtain ⟨p, hp⟩ := exists_toPlain_iff.mpr hleaves
    rw [hp, plain_of_toPlain hp]

/-! ### The conversion part by part -/

/-- **An array** has the list of the plain data of its items. -/
theorem toPlain_array_eq_ok_iff {items : List Datum} {p : Datum} :
    (Datum.array items).toPlain = .ok p ↔
      ∃ ps, List.Forall₂ (fun d q => d.toPlain = .ok q) items ps ∧ .list ps = p := by
  have hleaves : (Datum.array items).leaves = items.flatMap leaves := leaves_of_isContainer rfl
  simp only [toPlain_eq_ok_iff, List.forall₂_and_left, hleaves, List.forall_mem_flatMap, plain,
    plainItems_eq_map, and_assoc, exists_and_left]
  refine and_congr_right fun _ => ?_
  simp only [← List.forall₂_map_left_iff (f := plain), List.forall₂_eq_eq_eq, exists_eq_left']

/-- **An object** has the dict of the plain data of its members, each key once. -/
theorem toPlain_object_eq_ok_iff {members : List (Text × Datum)} {p : Datum} :
    (Datum.object members).toPlain = .ok p ↔
      ∃ ps : Members Datum,
        List.Forall₂ (fun m q => m.2.toPlain = .ok q.2 ∧ m.1 = q.1) members ps ∧
          .dict (ps.latest.map fun m => (.str m.1, m.2)) = p := by
  have hleaves : (Datum.object members).leaves = members.flatMap fun m => m.2.leaves := by
    rw [leaves_of_isContainer rfl, children, List.flatMap_map]
  have hpairs : ∀ (m : Text × Datum) (q : Text × Datum),
      (m.2.plain = q.2 ∧ m.1 = q.1) ↔ (m.1, m.2.plain) = q := by
    intro m q
    rw [Prod.ext_iff, and_comm]
  simp only [toPlain_eq_ok_iff, and_assoc, List.forall₂_and_left, hleaves,
    List.forall_mem_flatMap, plain, plainMembers_eq_map, exists_and_left, hpairs]
  refine and_congr_right fun _ => ?_
  simp only [← List.forall₂_map_left_iff (f := fun m : Text × Datum => (m.1, m.2.plain)),
    List.forall₂_eq_eq_eq, exists_eq_left']

/-! ### What is reported -/

/-- **The plain data that are met first** where JSON values have to stand: the data themselves, or
the first part that is none of the first container, in the order of the conversion, that has such a
part. -/
inductive FirstStray : Datum → Datum → Prop where
  | self {d : Datum} (h : d.isValue = false) : FirstStray d d
  | part {d c x : Datum} {before after left right : List Datum}
      (order : d.visited = before ++ c :: after)
      (clean : ∀ b ∈ before, ∀ y ∈ b.children, y.isValue = true)
      (parts : c.children = left ++ x :: right) (values : ∀ y ∈ left, y.isValue = true)
      (h : x.isValue = false) : FirstStray d x

theorem strayFault?_eq_none_iff {d : Datum} : d.strayFault? = none ↔ d.isValue = true := by
  rw [strayFault?]
  cases d.isValue <;> simp

theorem strayFault?_eq_some_iff {d : Datum} {e : DataError} :
    d.strayFault? = some e ↔ d.isValue = false ∧ e = .ofStray .notValue d := by
  rw [strayFault?]
  cases d.isValue <;> simp [eq_comm]

/-- **What the conversion fails with** is about the plain data that are met first. -/
theorem toPlain_eq_error_iff {d : Datum} {e : DataError} :
    d.toPlain = .error e ↔ ∃ x, FirstStray d x ∧ e = .ofStray .notValue x := by
  cases hd : d.isContainer with
  | true =>
    rw [← failure?_eq_some_iff, failure?_toPlain hd, List.findSome?_eq_some_iff]
    constructor
    · rintro ⟨before, c, after, order, hfault, hbefore⟩
      obtain ⟨left, x, right, parts, hx, hleft⟩ := List.findSome?_eq_some_iff.mp hfault
      obtain ⟨h, rfl⟩ := strayFault?_eq_some_iff.mp hx
      exact ⟨x, .part order (fun b hb => partsFault?_eq_none_iff.mp (hbefore b hb)) parts
        (fun y hy => strayFault?_eq_none_iff.mp (hleft y hy)) h, rfl⟩
    · rintro ⟨x, hx, rfl⟩
      cases hx with
      | self h => exact absurd (isValue_of_isContainer hd) (Bool.eq_false_iff.mp h)
      | part order clean parts values h =>
        refine ⟨_, _, _, order, ?_, fun b hb => partsFault?_eq_none_iff.mpr (clean b hb)⟩
        exact List.findSome?_eq_some_iff.mpr ⟨_, _, _, parts, strayFault?_eq_some_iff.mpr ⟨h, rfl⟩,
          fun y hy => strayFault?_eq_none_iff.mpr (values y hy)⟩
  | false =>
    rw [toPlain_of_not_isContainer hd, ← failure?_eq_some_iff, failure?_plainScalar hd,
      strayFault?_eq_some_iff]
    constructor
    · rintro ⟨h, rfl⟩
      exact ⟨d, .self h, rfl⟩
    · rintro ⟨x, hx, rfl⟩
      cases hx with
      | self h => exact ⟨h, rfl⟩
      | part order => simp [visited_of_not_isContainer hd] at order

theorem exists_error_iff {d : Datum} :
    (∃ e, d.toPlain = .error e) ↔ ∃ x ∈ d.leaves, x.isValue = false := by
  rw [← isSome_failure?_iff, Option.isSome_iff_ne_none, ne_eq, failure?_eq_none_iff,
    exists_toPlain_iff]
  simp only [not_forall, exists_prop, Bool.not_eq_true]

/-- Plain data are named if and only if they can be described. -/
theorem notValue_eq_ofStray_iff {x y : Datum} :
    .notValue x = DataError.ofStray .notValue y ↔ x = y ∧ y.obstacle? stepLimit = none := by
  rw [DataError.ofStray]
  cases y.obstacle? stepLimit <;> simp

/-- **Which plain data are reported.**  There are no plain data of a value if and only if some leaf
of it, at any depth, is no JSON value, be it in a member that a later one hides.  What is reported
is about the first one that is met, and it is named if it can be described. -/
theorem toPlain_reports_first_stray (d : Datum) :
    ((∃ e, d.toPlain = .error e) ↔ ∃ x ∈ d.leaves, x.isValue = false) ∧
      (∀ e, d.toPlain = .error e ↔ ∃ x, FirstStray d x ∧ e = .ofStray .notValue x) ∧
      ∀ x, d.toPlain = .error (.notValue x) ↔ FirstStray d x ∧ x.obstacle? stepLimit = none := by
  refine ⟨exists_error_iff, fun e => toPlain_eq_error_iff, fun x => ?_⟩
  simp only [toPlain_eq_error_iff, notValue_eq_ofStray_iff]
  constructor
  · rintro ⟨y, hy, rfl, hobstacle⟩
    exact ⟨hy, hobstacle⟩
  · rintro ⟨hx, hobstacle⟩
    exact ⟨x, hx, rfl, hobstacle⟩

-- the set is met first, in a member that the next one hides, behind an array that waits longer
example : (Datum.object [("a", .array [.str "x"]), ("b", .array [.foreign .emptySet]),
    ("b", .null)]).toPlain = .error (.notValue (.foreign .emptySet)) := by
  decide +kernel

/-- A leaf that is no value is not named when it is an integer with too many digits. -/
theorem not_toPlain_names_stray_of_long_integer :
    ¬ ∀ d : Datum, (∃ x, d.toPlain = .error (.notValue x)) ↔ ∃ x ∈ d.leaves, x.isValue = false := by
  intro h
  have herror : (Datum.array [.int (10 ^ 4300)]).toPlain = .error (.undescribable .digits) := by
    decide +kernel
  have hleaf : Datum.int (10 ^ 4300) ∈ (Datum.array [.int (10 ^ 4300)]).leaves := by
    rw [leaves_of_isContainer rfl, children, List.flatMap_singleton, leaves_of_not_isContainer rfl]
    exact List.mem_singleton_self _
  obtain ⟨x, hx⟩ := (h (.array [.int (10 ^ 4300)])).mpr ⟨_, hleaf, rfl⟩
  rw [herror] at hx
  cases hx

end Datum

end JsonLayout
