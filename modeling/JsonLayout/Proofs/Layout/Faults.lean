import JsonLayout.Proofs.Attempt
import JsonLayout.Proofs.Layout.Assemble
import JsonLayout.Proofs.Layout.Recursive

/-!
# Which fault a layout reports

A container is replaced by its pieces at once, so all its scalars are written before anything in the
containers inside it.  Those wait on the work list in the order in which they stand, each in front
of what comes behind it.  So the containers come up in reading order, a container before those in
it, and the first of them with a fault of its own decides: lines that cannot be indented, or else
the first of its scalars that has no text.

## Main definitions

* `Datum.containersAt`: the arrays and objects of a piece of data in reading order, with their
  depths.
* `Options.Unwritable`: the scalars, and the plain data in place of one, that have no text.
* `Options.fault?`: the fault of a container itself.

## Main results

* `Options.unwritable_iff`: what has no text, by what its text fails with.
* `Options.assemble_eq_error_iff`: the work list ends with the first fault of its containers.
* `Options.render_reports_first_fault`: when a container has no text, and which fault is reported.
-/

namespace JsonLayout

/-! ### Containers in reading order -/

namespace Datum

mutual

/-- **The arrays and objects** in a piece of data with the depths they stand at, in reading order:
each of them comes before those in it.  Plain data are not looked into. -/
def containersAt (depth : Int) : Datum → List (Int × Datum)
  | .array items => (depth, .array items) :: itemsContainersAt (depth + 1) items
  | .object members => (depth, .object members) :: membersContainersAt (depth + 1) members
  | _ => []

/-- The arrays and objects in all items. -/
def itemsContainersAt (depth : Int) : List Datum → List (Int × Datum)
  | [] => []
  | d :: items => d.containersAt depth ++ itemsContainersAt depth items

/-- The arrays and objects in the values of all members. -/
def membersContainersAt (depth : Int) : List (Text × Datum) → List (Int × Datum)
  | [] => []
  | (_, d) :: members => d.containersAt depth ++ membersContainersAt depth members

end

theorem itemsContainersAt_eq (depth : Int) (items : List Datum) :
    itemsContainersAt depth items = items.flatMap (containersAt depth) := by
  induction items with
  | nil => rfl
  | cons d items ih => rw [itemsContainersAt, ih, List.flatMap_cons]

theorem membersContainersAt_eq (depth : Int) (members : List (Text × Datum)) :
    membersContainersAt depth members = (members.map (·.2)).flatMap (containersAt depth) := by
  induction members with
  | nil => rfl
  | cons m members ih => rw [membersContainersAt, ih, List.map_cons, List.flatMap_cons]

theorem containersAt_of_isContainer {c : Datum} (hc : c.isContainer = true) (depth : Int) :
    c.containersAt depth = (depth, c) :: c.children.flatMap (containersAt (depth + 1)) := by
  cases c with
  | array items => rw [containersAt, itemsContainersAt_eq, children]
  | object members => rw [containersAt, membersContainersAt_eq, children]
  | _ => exact absurd hc Bool.false_ne_true

theorem containersAt_of_not_isContainer {d : Datum} (hd : d.isContainer = false) (depth : Int) :
    d.containersAt depth = [] := by
  cases d with
  | array items => exact absurd hd.symm Bool.false_ne_true
  | object members => exact absurd hd.symm Bool.false_ne_true
  | _ => rfl

end Datum

/-- The containers that a piece stands for. -/
def Piece.containers : Piece → List (Int × Datum)
  | .text _ => []
  | .array items place => (Datum.array items).containersAt place.depth
  | .object members place => (Datum.object members).containersAt place.depth

namespace Options

/-! ### Faults -/

/-- **What has no text**: plain data in place of a value, a number that holds something else than a
number, an integer with too many digits, and a number that is not finite unless those are
allowed. -/
inductive Unwritable (opts : Options) : Datum → Prop where
  | plain {d : Datum} (h : d.isValue = false) : Unwritable opts d
  | payload {p : Datum} (int : ∀ n, p ≠ .int n) (float : ∀ x, p ≠ .float x) :
      Unwritable opts (.number p)
  | integer {n : Int} (h : Decimal.exceedsLimit n = true) : Unwritable opts (.number (.int n))
  | double {x : Double} (h : x.isFinite = false) (nan : opts.allowNan = false) :
      Unwritable opts (.number (.float x))

/-- What the text of a part of a container fails with, if the part is no container itself. -/
def scalarFault? (opts : Options) (d : Datum) : Option DataError :=
  if d.isContainer then none else failure? (opts.scalarText d)

/-- **The fault of a container itself**, at some depth: its own lines cannot be indented, those of
its parts cannot, or some part that is no container has no text. -/
def fault? (opts : Options) (c : Int × Datum) : Option DataError :=
  (failure? (opts.checkIndent c.1)).or <| (failure? (opts.checkIndent (c.1 + 1))).or <|
    c.2.children.findSome? opts.scalarFault?

variable {opts : Options}

theorem exists_scalarFault_number_iff {p : Datum} :
    (∃ e, opts.scalarFault? (.number p) = some e) ↔ opts.Unwritable (.number p) := by
  have hfault : opts.scalarFault? (.number p) = failure? (opts.numberText p) := rfl
  rw [hfault]
  cases p with
  | int n =>
    rw [numberText]
    split_ifs with hn
    · exact iff_of_true ⟨_, rfl⟩ (.integer hn)
    · refine iff_of_false nofun ?_
      rintro (h | h | h | h)
      · cases h
      · exact h n rfl
      · exact hn h
  | float x =>
    rw [numberText, doubleText]
    split_ifs with hx hnan
    · refine iff_of_false nofun ?_
      rintro (h | ⟨-, h⟩ | h | ⟨h, -⟩)
      · cases h
      · exact h x rfl
      · exact Bool.false_ne_true (h.symm.trans hx)
    · refine iff_of_false nofun ?_
      rintro (h | ⟨-, h⟩ | h | ⟨-, h⟩)
      · cases h
      · exact h x rfl
      · exact Bool.false_ne_true (h.symm.trans hnan)
    · exact iff_of_true ⟨_, rfl⟩ (.double (Bool.eq_false_iff.mpr hx) (Bool.eq_false_iff.mpr hnan))
  | _ => exact iff_of_true ⟨_, rfl⟩ (.payload nofun nofun)

/-- **What has no text** is what the text fails for. -/
theorem unwritable_iff {d : Datum} :
    opts.Unwritable d ↔ ∃ e, opts.scalarFault? d = some e := by
  cases hd : d.isValue with
  | false =>
    refine iff_of_true (.plain hd) ?_
    cases d with
    | null | boolean | number | string | array | object => exact absurd hd.symm Bool.false_ne_true
    | _ => exact ⟨_, rfl⟩
  | true =>
    cases d with
    | number p => exact exists_scalarFault_number_iff.symm
    | null | boolean | string | array | object =>
      refine iff_of_false ?_ nofun
      rintro ⟨h⟩
      cases h
    | _ => exact absurd hd Bool.false_ne_true

/-! ### Pieces -/

/-- What becomes of a container that comes up: it has a fault, or pieces that stand for the
containers in it. -/
def Expands (opts : Options) (c : Int × Datum) (r : Except DataError (List Piece)) : Prop :=
  (∃ e, r = .error e ∧ opts.fault? c = some e) ∨
    ∃ ps, r = .ok ps ∧ opts.fault? c = none ∧
      ps.flatMap Piece.containers = c.2.children.flatMap (Datum.containersAt (c.1 + 1))

theorem part_cases (depth : Int) (afterKey : Bool) (d : Datum) :
    (∃ e, opts.part depth afterKey d = .error e ∧ opts.scalarFault? d = some e) ∨
      ∃ p, opts.part depth afterKey d = .ok p ∧ opts.scalarFault? d = none ∧
        p.containers = d.containersAt (depth + 1) := by
  cases hd : d.isContainer with
  | true =>
    cases d with
    | array items => exact .inr ⟨_, rfl, rfl, rfl⟩
    | object members => exact .inr ⟨_, rfl, rfl, rfl⟩
    | _ => exact absurd hd Bool.false_ne_true
  | false =>
    have hpart : opts.part depth afterKey d = (opts.scalarText d).map fun t =>
        .text (if afterKey then t else opts.indent (depth + 1) ++ t) := by
      cases d with
      | array items => exact absurd hd.symm Bool.false_ne_true
      | object members => exact absurd hd.symm Bool.false_ne_true
      | _ => rfl
    rw [hpart, scalarFault?, hd, if_neg Bool.false_ne_true]
    cases opts.scalarText d with
    | error e => exact .inl ⟨e, rfl, rfl⟩
    | ok t => exact .inr ⟨_, rfl, rfl, (Datum.containersAt_of_not_isContainer hd _).symm⟩

theorem itemPieces_cases (depth : Int) (items : List Datum) :
    (∃ e, opts.itemPieces depth items = .error e ∧
        items.findSome? opts.scalarFault? = some e) ∨
      ∃ ps, opts.itemPieces depth items = .ok ps ∧ items.findSome? opts.scalarFault? = none ∧
        ps.flatMap Piece.containers = items.flatMap (Datum.containersAt (depth + 1)) := by
  induction items with
  | nil => exact .inr ⟨[], rfl, rfl, rfl⟩
  | cons d items ih =>
    rw [itemPieces, List.findSome?_cons]
    rcases part_cases depth false d with ⟨e, he, hfault⟩ | ⟨p, hp, hfault, hcs⟩
    · exact .inl ⟨e, by rw [he]; rfl, by rw [hfault]⟩
    · rw [hp, hfault]
      rcases ih with ⟨e, he, hfaults⟩ | ⟨ps, hps, hfaults, hcss⟩
      · exact .inl ⟨e, by rw [he]; rfl, hfaults⟩
      · refine .inr ⟨p :: ps, by rw [hps]; rfl, hfaults, ?_⟩
        rw [List.flatMap_cons, List.flatMap_cons, hcs, hcss]

theorem memberPieces_cases (depth : Int) (members : List (Text × Datum)) :
    (∃ e, opts.memberPieces depth members = .error e ∧
        (members.map (·.2)).findSome? opts.scalarFault? = some e) ∨
      ∃ ps, opts.memberPieces depth members = .ok ps ∧
        (members.map (·.2)).findSome? opts.scalarFault? = none ∧
        (ps.map (·.2)).flatMap Piece.containers
          = (members.map (·.2)).flatMap (Datum.containersAt (depth + 1)) := by
  induction members with
  | nil => exact .inr ⟨[], rfl, rfl, rfl⟩
  | cons m members ih =>
    rw [memberPieces, List.map_cons, List.findSome?_cons]
    rcases part_cases depth true m.2 with ⟨e, he, hfault⟩ | ⟨p, hp, hfault, hcs⟩
    · exact .inl ⟨e, by rw [he]; rfl, by rw [hfault]⟩
    · rw [hp, hfault]
      rcases ih with ⟨e, he, hfaults⟩ | ⟨ps, hps, hfaults, hcss⟩
      · exact .inl ⟨e, by rw [he]; rfl, hfaults⟩
      · refine .inr ⟨_ :: ps, by rw [hps]; rfl, hfaults, ?_⟩
        rw [List.map_cons, List.flatMap_cons, List.flatMap_cons, hcs, hcss]

/-- Texts between pieces stand for no containers. -/
theorem flatMap_containers_intersperse (t : Text) (ps : List Piece) :
    (ps.intersperse (.text t)).flatMap Piece.containers = ps.flatMap Piece.containers := by
  induction ps with
  | nil => rfl
  | cons p ps ih =>
    cases ps with
    | nil => rfl
    | cons q ps =>
      rw [List.intersperse_cons_cons, List.flatMap_cons, List.flatMap_cons, ih, List.flatMap_cons]
      rfl

theorem flatMap_containers_flatten_intersperse (t : Text) (ps : List (Text × Piece)) :
    ((ps.map fun p => [.text p.1, p.2]).intersperse [.text t]).flatten.flatMap Piece.containers
      = (ps.map (·.2)).flatMap Piece.containers := by
  induction ps with
  | nil => rfl
  | cons p ps ih =>
    cases ps with
    | nil => rfl
    | cons q ps =>
      rw [List.map_cons] at ih ⊢
      rw [List.map_cons, List.intersperse_cons_cons, List.flatten_cons, List.flatten_cons,
        List.flatMap_append, List.flatMap_append, ih]
      simp [Piece.containers]

theorem flatMap_containers_lineEnd {α : Type} (parts : List α) :
    (lineEnd parts).flatMap Piece.containers = [] := by
  cases parts <;> rfl

theorem checkPlace_cases (place : Place) (parts : Option DataError) :
    (∃ e, opts.checkPlace place = .error e ∧
        (failure? (opts.checkIndent place.depth)).or
          ((failure? (opts.checkIndent (place.depth + 1))).or parts) = some e) ∨
      opts.checkPlace place = .ok () ∧
        (failure? (opts.checkIndent place.depth)).or
          ((failure? (opts.checkIndent (place.depth + 1))).or parts) = parts := by
  rw [checkPlace]
  cases opts.checkIndent place.depth with
  | error e => exact .inl ⟨e, rfl, rfl⟩
  | ok u =>
    cases opts.checkIndent (place.depth + 1) with
    | error e => exact .inl ⟨e, rfl, rfl⟩
    | ok u => exact .inr ⟨rfl, rfl⟩

/-- **An array** has a fault, or pieces that stand for the containers in it. -/
theorem expands_array (items : List Datum) (place : Place) :
    opts.Expands (place.depth, .array items) (opts.arrayPieces items place) := by
  have hfault := opts.checkPlace_cases place (items.findSome? opts.scalarFault?)
  rcases hfault with ⟨e, he, hfault⟩ | ⟨hplace, hfault⟩
  · exact .inl ⟨e, by rw [arrayPieces, he]; rfl, hfault⟩
  · rcases itemPieces_cases place.depth items with ⟨e, he, hfaults⟩ | ⟨ps, hps, hfaults, hcs⟩
    · exact .inl ⟨e, by rw [arrayPieces, hplace, he]; rfl, hfault.trans hfaults⟩
    · refine .inr ⟨_, by rw [arrayPieces, hplace, hps]; rfl, hfault.trans hfaults, ?_⟩
      rw [opening, List.flatMap_cons, List.flatMap_append, List.flatMap_append,
        flatMap_containers_intersperse, flatMap_containers_lineEnd, hcs]
      exact (List.append_nil _).trans (List.append_nil _)

/-- **An object** has a fault, or pieces that stand for the containers in it. -/
theorem expands_object (members : List (Text × Datum)) (place : Place) :
    opts.Expands (place.depth, .object members) (opts.objectPieces members place) := by
  have hfault := opts.checkPlace_cases place ((members.map (·.2)).findSome? opts.scalarFault?)
  rcases hfault with ⟨e, he, hfault⟩ | ⟨hplace, hfault⟩
  · exact .inl ⟨e, by rw [objectPieces, he]; rfl, hfault⟩
  · rcases memberPieces_cases place.depth members with ⟨e, he, hfaults⟩ | ⟨ps, hps, hfaults, hcs⟩
    · exact .inl ⟨e, by rw [objectPieces, hplace, he]; rfl, hfault.trans hfaults⟩
    · refine .inr ⟨_, by rw [objectPieces, hplace, hps]; rfl, hfault.trans hfaults, ?_⟩
      rw [opening, List.flatMap_cons, List.flatMap_append, List.flatMap_append,
        flatMap_containers_flatten_intersperse, flatMap_containers_lineEnd, hcs]
      exact (List.append_nil _).trans (List.append_nil _)

/-! ### The work list -/

/-- A container with a fault of its own comes before all others. -/
theorem Expands.findSome?_of_error {c : Int × Datum} {e : DataError} (hc : c.2.isContainer = true)
    (h : opts.Expands c (.error e)) (others : List (Int × Datum)) :
    (c.2.containersAt c.1 ++ others).findSome? opts.fault? = some e := by
  rw [Datum.containersAt_of_isContainer hc, List.cons_append, List.findSome?_cons]
  rcases h with ⟨e', he, hfault⟩ | ⟨ps, hps, -⟩
  · rw [hfault, Except.error.inj he]
  · cases hps

/-- A container without a fault of its own leaves it to the pieces that stand for those in it. -/
theorem Expands.findSome?_of_ok {c : Int × Datum} {ps : List Piece} (hc : c.2.isContainer = true)
    (h : opts.Expands c (.ok ps)) (others : List (Int × Datum)) :
    (c.2.containersAt c.1 ++ others).findSome? opts.fault?
      = (ps.flatMap Piece.containers ++ others).findSome? opts.fault? := by
  rw [Datum.containersAt_of_isContainer hc, List.cons_append, List.findSome?_cons]
  rcases h with ⟨e, he, -⟩ | ⟨ps', hps, hfault, hcs⟩
  · cases he
  · rw [hfault, Except.ok.inj hps, hcs]

/-- **The work list** ends with the first fault of the containers on it. -/
theorem assemble_eq_error_iff {done : List Text} {work : List Piece} {e : DataError} :
    opts.assemble done work = .error e ↔
      (work.flatMap Piece.containers).findSome? opts.fault? = some e := by
  fun_induction assemble opts done work with
  | case1 done => exact iff_of_false nofun nofun
  | case2 done t work ih =>
    rw [List.flatMap_cons, Piece.containers, List.nil_append]
    exact ih
  | case3 done items place work e' he =>
    have hexpands := he ▸ opts.expands_array items place
    rw [List.flatMap_cons, Piece.containers, hexpands.findSome?_of_error rfl, Option.some.injEq,
      Except.error.injEq]
  | case4 done items place work ps hps _ ih =>
    have hexpands := hps ▸ opts.expands_array items place
    rw [List.flatMap_cons, Piece.containers, hexpands.findSome?_of_ok rfl, ← List.flatMap_append]
    exact ih
  | case5 done members place work e' he =>
    have hexpands := he ▸ opts.expands_object members place
    rw [List.flatMap_cons, Piece.containers, hexpands.findSome?_of_error rfl, Option.some.injEq,
      Except.error.injEq]
  | case6 done members place work ps hps _ ih =>
    have hexpands := hps ▸ opts.expands_object members place
    rw [List.flatMap_cons, Piece.containers, hexpands.findSome?_of_ok rfl, ← List.flatMap_append]
    exact ih

/-- **A container** has no text for the first fault of the containers in it, itself included. -/
theorem render_eq_error_iff {c : Datum} (hc : c.isContainer = true) {depth : Int} {afterKey : Bool}
    {e : DataError} :
    opts.render c depth afterKey = .error e ↔
      (c.containersAt depth).findSome? opts.fault? = some e := by
  cases c with
  | array items =>
    rw [render, assemble_eq_error_iff, List.flatMap_singleton, Piece.containers]
  | object members =>
    rw [render, assemble_eq_error_iff, List.flatMap_singleton, Piece.containers]
  | _ => exact absurd hc Bool.false_ne_true

/-! ### Which fault is reported -/

/-- **A container has a fault** if and only if some part of it has no text, or its lines or those of
its parts cannot be indented. -/
theorem isSome_fault?_iff {c : Int × Datum} :
    (opts.fault? c).isSome = true ↔
      (∃ d ∈ c.2.children, opts.Unwritable d) ∨
        ∃ e, opts.checkIndent c.1 = .error e ∨ opts.checkIndent (c.1 + 1) = .error e := by
  have hparts : (c.2.children.findSome? opts.scalarFault?).isSome = true ↔
      ∃ d ∈ c.2.children, opts.Unwritable d := by
    simp only [unwritable_iff, ← Option.isSome_iff_exists, List.findSome?_isSome_iff]
  rw [fault?, Option.isSome_or, Option.isSome_or, Bool.or_eq_true, Bool.or_eq_true,
    isSome_failure?_iff, isSome_failure?_iff, hparts, ← or_assoc, or_comm, exists_or]

/-- Where all lines can be indented, only the parts of a container are left to have a fault. -/
theorem fault?_of_checkIndent {depth : Int} (c : Datum) (hown : opts.checkIndent depth = .ok ())
    (hparts : opts.checkIndent (depth + 1) = .ok ()) :
    opts.fault? (depth, c) = c.children.findSome? opts.scalarFault? := by
  rw [fault?, hown, hparts]
  rfl

/-- **Which fault is reported.**  A container has no text if and only if something in it, at any
depth, has none, or there is a container in it of which the lines, or those of the parts, cannot be
indented.  What is reported is the fault of the first container, in reading order, that has one. -/
theorem render_reports_first_fault (opts : Options) {c : Datum} (hc : c.isContainer = true)
    (depth : Int) (afterKey : Bool) :
    ((∃ e, opts.render c depth afterKey = .error e) ↔
        (∃ p ∈ c.containersAt depth, ∃ d ∈ p.2.children, opts.Unwritable d) ∨
          ∃ p ∈ c.containersAt depth,
            ∃ e, opts.checkIndent p.1 = .error e ∨ opts.checkIndent (p.1 + 1) = .error e) ∧
      ∀ e, opts.render c depth afterKey = .error e ↔
        ∃ before p after, c.containersAt depth = before ++ p :: after ∧ opts.fault? p = some e ∧
          ∀ q ∈ before, opts.fault? q = none := by
  constructor
  · simp only [render_eq_error_iff hc, ← Option.isSome_iff_exists, List.findSome?_isSome_iff,
      isSome_fault?_iff, and_or_left, exists_or]
  · intro e
    rw [render_eq_error_iff hc, List.findSome?_eq_some_iff]

/-- A string that is no value stands in an array in front of an infinity: the infinity is reported,
since it is written before the array is opened. -/
theorem render_reports_infinity_behind_array :
    (Datum.array [.array [.str "a"], .number (.float (.infinite true))]).isContainer = true ∧
      (∃ e, Options.render {} (.array [.array [.str "a"], .number (.float (.infinite true))]) 1 true
        = .error e) ∧
      Options.render {} (.array [.array [.str "a"], .number (.float (.infinite true))]) 1 true
        = .error (.notFinite (.infinite true)) := by
  have hc : (Datum.array [.array [.str "a"], .number (.float (.infinite true))]).isContainer = true
      := rfl
  have hparts := render_reports_first_fault {} hc 1 true
  refine ⟨hc, hparts.1.mpr (.inl ?_), (hparts.2 _).mpr ?_⟩
  · exact ⟨_, List.mem_cons_self .., .number (.float (.infinite true)), by simp [Datum.children],
      .double rfl rfl⟩
  · exact ⟨[], _, _, rfl, by decide +kernel, List.forall_mem_nil _⟩

/-- Of the two containers in an array, the first one decides, though the other one stands less
deep. -/
example :
    Options.render {} (.array [.object [("a", .array [.number (.bool true)])], .array [.str "b"]]) 0
      false = .error .boolNumber := by
  decide +kernel

/-- An empty array holds nothing that has no text, but it may stand behind more spaces than a
machine word counts. -/
theorem not_render_reports_parts_only_of_wide_indent :
    ¬ ∀ (opts : Options) (c : Datum) (depth : Int) (afterKey : Bool), c.isContainer = true →
      ((∃ e, opts.render c depth afterKey = .error e) ↔
        ∃ p ∈ c.containersAt depth, ∃ d ∈ p.2.children, opts.Unwritable d) := by
  intro h
  have herror : Options.render ⟨2 ^ 63, false, false⟩ (.array []) 0 false
      = .error .indentOverflow := by decide +kernel
  obtain ⟨p, hp, d, hd, -⟩ := (h ⟨2 ^ 63, false, false⟩ (.array []) 0 false rfl).mp ⟨_, herror⟩
  obtain rfl := List.mem_singleton.mp hp
  exact absurd hd List.not_mem_nil

end Options

end JsonLayout
