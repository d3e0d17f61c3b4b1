import JsonLayout.Datum.Conversion
import JsonLayout.Proofs.Attempt

/-!
# From plain data to JSON values

The conversion of plain data keeps the containers it is in on a stack.  Each of them owes the rest
of its parts, and what it makes up then is a part of the next; said so, by recursion, a step of the
walk changes nothing, and the whole walk gives what a recursion over the data gives.  Of that it is
seen part by part when there is a value, what its shape is, and which fault comes first.

## Main definitions

* `Datum.value`: the conversion by recursion.
* `Datum.Frame.finish`, `Datum.finishAll`: what a container in the walk, and the stack around it,
  come to.
* `Datum.StandsFor`: a value of the same shape as some data.
* `Datum.Reaches`, `Datum.Supported`: the data in some data, and those that can be converted.
* `Datum.faults`: all that is wrong, in reading order.

## Main results

* `Datum.walk_eq`: the walk does what the recursion does.
* `Datum.toValue_list`, `Datum.toValue_tuple`, `Datum.toValue_dict`: the conversion of a container
  from those of its parts.
* `Datum.toValue_converts_supported`: which data are converted, to what, and which fault is reported
  of the others.
-/

namespace JsonLayout

namespace Datum

/-! ### The conversion by recursion -/

mutual

/-- The JSON value that a piece of data stands for.  A key is looked at before its value. -/
def value : Datum → Except DataError Datum
  | .list items => (itemValues items).map .array
  | .tuple items => (itemValues items).map .array
  | .dict entries => (entryMembers entries).map .object
  | d => d.leaf?.map (·.getD d)

/-- The values of items, from the first to the last. -/
def itemValues : List Datum → Except DataError (List Datum)
  | [] => .ok []
  | d :: items => do
    let v ← d.value
    let vs ← itemValues items
    return v :: vs

/-- The members of the entries of a dict, from the first to the last. -/
def entryMembers : List (Datum × Datum) → Except DataError (List (Text × Datum))
  | [] => .ok []
  | (key, d) :: entries =>
    match key with
    | .str s => do
      let v ← d.value
      let ms ← entryMembers entries
      return (s, v) :: ms
    | _ => .error (.keyType key.typeName)

end

theorem value_of_leaf?_eq_ok {d v : Datum} (h : d.leaf? = .ok (some v)) : d.value = .ok v := by
  cases d <;> cases h <;> rfl

theorem value_of_leaf?_eq_error {d : Datum} {e : DataError} (h : d.leaf? = .error e) :
    d.value = .error e := by
  cases d with
  | foreign f => cases h; rfl
  | _ => cases h

/-! ### The walk -/

/-- A part and its key, converted by recursion. -/
def partValue (part : Option Datum × Datum) : Except DataError (Option Text × Datum) := do
  let key ← keyText? part.1
  let v ← part.2.value
  return (key, v)

/-- **What a container comes to** when the parts it still waits for are converted by recursion. -/
def Frame.finish (frame : Frame) : Except DataError Datum :=
  (frame.pending.mapM partValue).map fun parts =>
    Frame.value { frame with done := parts.reverse ++ frame.done }

/-- What the containers around a part come to, from the inside out. -/
def finishAll (part : Option Text × Datum) : List Frame → Except DataError Datum
  | [] => .ok part.2
  | around :: outer => do finishAll (around.key, ← (around.add part).finish) outer

theorem Frame.finish_of_pending_nil {frame : Frame} (h : frame.pending = []) :
    frame.finish = .ok frame.value := by
  rw [finish, h]
  rfl

/-- A container comes to the same with its first part converted. -/
theorem Frame.finish_of_pending_cons {frame : Frame} {part : Option Datum × Datum}
    {pending : List (Option Datum × Datum)} (h : frame.pending = part :: pending) :
    frame.finish =
      (partValue part).bind fun p => (Frame.add { frame with pending } p).finish := by
  rw [finish, h, List.mapM_cons]
  cases hp : partValue part with
  | error e => rfl
  | ok p =>
    simp only [bind, Except.bind, finish, add]
    cases pending.mapM partValue with
    | error e => rfl
    | ok parts => simp [pure, Except.pure, Except.map, value]

theorem mapM_partValue_items (items : List Datum) :
    (items.map fun d => (none, d)).mapM partValue
      = (itemValues items).map (List.map fun v => (none, v)) := by
  induction items with
  | nil => rfl
  | cons d items ih =>
    rw [List.map_cons, List.mapM_cons, ih, itemValues]
    cases hd : d.value with
    | error e => simp [partValue, keyText?, hd, bind, Except.bind, Except.map]
    | ok v =>
      cases itemValues items <;>
        simp [partValue, keyText?, hd, bind, Except.bind, pure, Except.pure, Except.map]

theorem mapM_partValue_entries (entries : List (Datum × Datum)) :
    (entries.map fun e => (some e.1, e.2)).mapM partValue
      = (entryMembers entries).map (List.map fun m => (some m.1, m.2)) := by
  induction entries with
  | nil => rfl
  | cons e entries ih =>
    obtain ⟨key, d⟩ := e
    rw [List.map_cons, List.mapM_cons, ih]
    cases key with
    | str s =>
      rw [entryMembers]
      cases hd : d.value with
      | error e => simp [partValue, keyText?, hd, bind, Except.bind, Except.map]
      | ok v =>
        cases entryMembers entries <;>
          simp [partValue, keyText?, hd, bind, Except.bind, pure, Except.pure, Except.map]
    | _ => rfl

/-- **A container before its first part** comes to its value. -/
theorem finish_opening {d : Datum} (h : d.leaf? = .ok none) (key : Option Text) :
    (Frame.opening d key).finish = d.value := by
  cases d with
  | list items | tuple items =>
    rw [Frame.finish, Frame.opening, plainParts, mapM_partValue_items, value]
    cases itemValues items <;> simp [Except.map, Frame.value, isDict, Function.comp_def]
  | dict entries =>
    rw [Frame.finish, Frame.opening, plainParts, mapM_partValue_entries, value]
    cases entryMembers entries <;> simp [Except.map, Frame.value, isDict, Function.comp_def]
  | _ => cases h

/-- **The walk** gives what the containers on the stack come to. -/
theorem walk_eq (frame : Frame) (outer : List Frame) :
    walk frame outer = frame.finish.bind fun v => finishAll (frame.key, v) outer := by
  fun_induction walk frame outer with
  | case1 frame h => rw [Frame.finish_of_pending_nil h]; rfl
  | case2 frame h around outer ih =>
    rw [ih, Frame.finish_of_pending_nil h]
    rfl
  | case3 frame outer key d pending h e hkey =>
    rw [Frame.finish_of_pending_cons h, partValue, hkey]
    rfl
  | case4 frame outer key d pending h key' hkey e hleaf =>
    rw [Frame.finish_of_pending_cons h, partValue, hkey, value_of_leaf?_eq_error hleaf]
    rfl
  | case5 frame outer key d pending h key' hkey v hleaf ih =>
    rw [ih, Frame.finish_of_pending_cons h, partValue, hkey, value_of_leaf?_eq_ok hleaf]
    rfl
  | case6 frame outer key d pending h key' hkey hleaf ih =>
    rw [ih, finish_opening hleaf, Frame.finish_of_pending_cons h, partValue, hkey]
    cases d.value <;> rfl

/-- **The conversion** is that by recursion. -/
theorem toValue_eq_value (d : Datum) : d.toValue = d.value := by
  rw [toValue]
  split
  · next e h => rw [value_of_leaf?_eq_error h]
  · next v h => rw [value_of_leaf?_eq_ok h]
  · next h =>
    rw [walk_eq, finish_opening h]
    cases d.value <;> rfl

/-! ### The conversion part by part -/

/-- The member that an entry of a dict becomes.  The key is looked at before the value. -/
def toMember (entry : Datum × Datum) : Except DataError (Text × Datum) :=
  match entry.1 with
  | .str s => entry.2.toValue.map fun v => (s, v)
  | key => .error (.keyType key.typeName)

theorem itemValues_eq_mapM (items : List Datum) : itemValues items = items.mapM toValue := by
  induction items with
  | nil => rfl
  | cons d items ih => rw [itemValues, ih, List.mapM_cons, toValue_eq_value]

theorem entryMembers_eq_mapM (entries : List (Datum × Datum)) :
    entryMembers entries = entries.mapM toMember := by
  induction entries with
  | nil => rfl
  | cons e entries ih =>
    obtain ⟨key, d⟩ := e
    rw [List.mapM_cons]
    cases key with
    | str s =>
      rw [entryMembers, ih, toMember, toValue_eq_value]
      cases d.value <;> rfl
    | _ => rfl

theorem toValue_list (items : List Datum) :
    (Datum.list items).toValue = (items.mapM toValue).map .array := by
  rw [toValue_eq_value, value, itemValues_eq_mapM]

theorem toValue_tuple (items : List Datum) :
    (Datum.tuple items).toValue = (items.mapM toValue).map .array := by
  rw [toValue_eq_value, value, itemValues_eq_mapM]

theorem toValue_dict (entries : List (Datum × Datum)) :
    (Datum.dict entries).toValue = (entries.mapM toMember).map .object := by
  rw [toValue_eq_value, value, entryMembers_eq_mapM]

theorem sizeOf_lt_pendingSize {parts : List (Option Datum × Datum)} {p : Option Datum × Datum}
    (hp : p ∈ parts) : sizeOf p.2 < pendingSize parts := by
  induction parts with
  | nil => cases hp
  | cons q parts ih =>
    rw [pendingSize]
    rcases List.mem_cons.mp hp with rfl | hp
    · omega
    · exact Nat.lt_of_lt_of_le (ih hp) (Nat.le_add_left ..)

/-- **Induction over plain data**: what holds of some data as soon as it holds of their parts holds
of all. -/
@[elab_as_elim]
theorem induction_plainParts {motive : Datum → Prop}
    (parts : ∀ d : Datum, (∀ p ∈ d.plainParts, motive p.2) → motive d) (d : Datum) : motive d :=
  parts d fun p _ => induction_plainParts parts p.2
termination_by d
decreasing_by exact Nat.lt_trans (sizeOf_lt_pendingSize ‹_›) (pendingSize_plainParts_lt d)

/-! ### The value -/

/-- **A JSON value of the same shape** as a piece of data, with the parts in the same order.  A
truth value does not become a number, and a JSON value stays as it is. -/
inductive StandsFor : Datum → Datum → Prop where
  | nothing : StandsFor .nothing .null
  | bool (b : Bool) : StandsFor (.bool b) (.boolean b)
  | int (n : Int) : StandsFor (.int n) (.number (.int n))
  | float (x : Double) : StandsFor (.float x) (.number (.float x))
  | str (s : Text) : StandsFor (.str s) (.string s)
  | list {items vs : List Datum} (h : List.Forall₂ StandsFor items vs) :
      StandsFor (.list items) (.array vs)
  | tuple {items vs : List Datum} (h : List.Forall₂ StandsFor items vs) :
      StandsFor (.tuple items) (.array vs)
  | dict {entries : List (Datum × Datum)} {members : List (Text × Datum)}
      (keys : List.Forall₂ (fun e m => e.1 = .str m.1) entries members)
      (values : List.Forall₂ (fun e m => StandsFor e.2 m.2) entries members) :
      StandsFor (.dict entries) (.object members)
  | value {v : Datum} (h : v.isValue = true) : StandsFor v v

theorem toMember_eq_ok_iff {e : Datum × Datum} {m : Text × Datum} :
    toMember e = .ok m ↔ e.1 = .str m.1 ∧ e.2.toValue = .ok m.2 := by
  obtain ⟨key, d⟩ := e
  obtain ⟨s, v⟩ := m
  cases key with
  | str t => simp [toMember, map_eq_ok_iff, and_comm]
  | _ => exact iff_of_false nofun nofun

theorem standsFor_list_iff {items : List Datum} {v : Datum} :
    StandsFor (.list items) v ↔ ∃ vs, List.Forall₂ StandsFor items vs ∧ .array vs = v := by
  constructor
  · intro h
    cases h with
    | list h => exact ⟨_, h, rfl⟩
    | value h => cases h
  · rintro ⟨vs, h, rfl⟩
    exact .list h

theorem standsFor_tuple_iff {items : List Datum} {v : Datum} :
    StandsFor (.tuple items) v ↔ ∃ vs, List.Forall₂ StandsFor items vs ∧ .array vs = v := by
  constructor
  · intro h
    cases h with
    | tuple h => exact ⟨_, h, rfl⟩
    | value h => cases h
  · rintro ⟨vs, h, rfl⟩
    exact .tuple h

theorem standsFor_dict_iff {entries : List (Datum × Datum)} {v : Datum} :
    StandsFor (.dict entries) v ↔
      ∃ ms : List (Text × Datum), (List.Forall₂ (fun e m => e.1 = .str m.1) entries ms ∧
        List.Forall₂ (fun e m => StandsFor e.2 m.2) entries ms) ∧ .object ms = v := by
  constructor
  · intro h
    cases h with
    | dict keys values => exact ⟨_, ⟨keys, values⟩, rfl⟩
    | value h => cases h
  · rintro ⟨ms, ⟨keys, values⟩, rfl⟩
    exact .dict keys values

/-- **The value of a piece of data** is that of the same shape. -/
theorem toValue_eq_ok_iff {d v : Datum} : d.toValue = .ok v ↔ StandsFor d v := by
  induction d using induction_plainParts generalizing v with
  | parts d ih =>
    cases d with
    | list items | tuple items =>
      rw [plainParts, List.forall_mem_map] at ih
      simp only [toValue_list, toValue_tuple, standsFor_list_iff, standsFor_tuple_iff,
        map_eq_ok_iff, mapM_eq_ok_iff, forall₂_congr_of_mem fun d hd v => ih d hd]
    | dict entries =>
      rw [plainParts, List.forall_mem_map] at ih
      simp only [toValue_dict, standsFor_dict_iff, map_eq_ok_iff, mapM_eq_ok_iff,
        toMember_eq_ok_iff, forall₂_and_iff, forall₂_congr_of_mem fun e he m => ih e he]
    | foreign f =>
      constructor
      · intro h
        cases h
      · intro h
        cases h with
        | value h => cases h
    | nothing | bool | int | float | str =>
      constructor
      · intro h
        cases h
        constructor
      · intro h
        cases h with
        | value h => cases h
        | _ => rfl
    | null | boolean | number | string | array | object =>
      constructor
      · intro h
        cases h
        exact .value rfl
      · intro h
        cases h with
        | value => rfl

/-! ### The faults -/

/-- **The data in a piece of data**, found through lists, tuples and the values of dicts.  JSON
values are not looked into. -/
inductive Reaches : Datum → Datum → Prop where
  | self (d : Datum) : Reaches d d
  | list {items : List Datum} {d c : Datum} (mem : d ∈ items) (h : Reaches d c) :
      Reaches (.list items) c
  | tuple {items : List Datum} {d c : Datum} (mem : d ∈ items) (h : Reaches d c) :
      Reaches (.tuple items) c
  | dict {entries : List (Datum × Datum)} {e : Datum × Datum} {c : Datum} (mem : e ∈ entries)
      (h : Reaches e.2 c) : Reaches (.dict entries) c

/-- Data of a type that has JSON values; the keys of a dict are texts. -/
def Supported : Datum → Prop
  | .foreign _ => False
  | .dict entries => ∀ e ∈ entries, ∃ s, e.1 = .str s
  | _ => True

/-- What is wrong with a key. -/
def keyFaults : Datum → List DataError
  | .str _ => []
  | key => [.keyType key.typeName]

mutual

/-- **All that is wrong** with a piece of data, from the left to the right.  A key comes before what
stands under it, and after all that stands under the keys in front of it. -/
def faults : Datum → List DataError
  | .foreign f => [.noCounterpart f.typeName]
  | .list items => itemsFaults items
  | .tuple items => itemsFaults items
  | .dict entries => entriesFaults entries
  | _ => []

/-- All that is wrong with items. -/
def itemsFaults : List Datum → List DataError
  | [] => []
  | d :: items => d.faults ++ itemsFaults items

/-- All that is wrong with the entries of a dict. -/
def entriesFaults : List (Datum × Datum) → List DataError
  | [] => []
  | (key, d) :: entries => keyFaults key ++ d.faults ++ entriesFaults entries

end

theorem itemsFaults_eq_flatMap (items : List Datum) :
    itemsFaults items = items.flatMap faults := by
  induction items with
  | nil => rfl
  | cons d items ih => rw [itemsFaults, ih, List.flatMap_cons]

theorem entriesFaults_eq_flatMap (entries : List (Datum × Datum)) :
    entriesFaults entries = entries.flatMap fun e => keyFaults e.1 ++ e.2.faults := by
  induction entries with
  | nil => rfl
  | cons e entries ih => rw [entriesFaults, ih, List.flatMap_cons]

theorem failure?_toMember (e : Datum × Datum) :
    failure? (toMember e) = (keyFaults e.1).head?.or (failure? e.2.toValue) := by
  obtain ⟨key, d⟩ := e
  cases key with
  | str s => exact failure?_map _ _
  | _ => rfl

/-- **The conversion fails** with the first thing that is wrong. -/
theorem failure?_toValue (d : Datum) : failure? d.toValue = d.faults.head? := by
  induction d using induction_plainParts with
  | parts d ih =>
    cases d with
    | list items | tuple items =>
      rw [plainParts, List.forall_mem_map] at ih
      simp only [toValue_list, toValue_tuple, failure?_map, failure?_mapM, faults,
        itemsFaults_eq_flatMap, List.head?_flatMap]
      exact findSome?_congr_of_mem ih
    | dict entries =>
      rw [plainParts, List.forall_mem_map] at ih
      rw [toValue_dict, failure?_map, failure?_mapM, faults, entriesFaults_eq_flatMap,
        List.head?_flatMap]
      refine findSome?_congr_of_mem fun e he => ?_
      rw [failure?_toMember, ih e he, List.head?_append]
    | _ => rfl

theorem keyFaults_eq_nil_iff {key : Datum} : keyFaults key = [] ↔ ∃ s, key = .str s := by
  cases key <;> simp [keyFaults]

/-- Nothing is wrong with data if and only if they are supported and nothing is wrong with their
parts. -/
theorem faults_eq_nil_iff_parts {d : Datum} :
    d.faults = [] ↔ d.Supported ∧ ∀ p ∈ d.plainParts, p.2.faults = [] := by
  cases d with
  | list items | tuple items => simp [faults, itemsFaults_eq_flatMap, Supported, plainParts]
  | dict entries =>
    simp only [faults, entriesFaults_eq_flatMap, List.flatMap_eq_nil_iff, List.append_eq_nil_iff,
      keyFaults_eq_nil_iff, Supported, plainParts, List.forall_mem_map, ← forall₂_and]
  | foreign f => exact iff_of_false (List.cons_ne_nil _ _) fun h => h.1
  | _ => exact iff_of_true rfl ⟨trivial, List.forall_mem_nil _⟩

theorem reaches_iff {d c : Datum} : Reaches d c ↔ d = c ∨ ∃ p ∈ d.plainParts, Reaches p.2 c := by
  constructor
  · intro h
    cases h with
    | self => exact .inl rfl
    | list mem h | tuple mem h | dict mem h => exact .inr ⟨_, List.mem_map_of_mem mem, h⟩
  · rintro (rfl | ⟨p, hp, h⟩)
    · exact .self d
    · cases d with
      | list items =>
        obtain ⟨x, hx, rfl⟩ := List.mem_map.mp hp
        exact .list hx h
      | tuple items =>
        obtain ⟨x, hx, rfl⟩ := List.mem_map.mp hp
        exact .tuple hx h
      | dict entries =>
        obtain ⟨e, he, rfl⟩ := List.mem_map.mp hp
        exact .dict he h
      | _ => cases hp

theorem forall_reaches_iff {d : Datum} {P : Datum → Prop} :
    (∀ c, Reaches d c → P c) ↔ P d ∧ ∀ p ∈ d.plainParts, ∀ c, Reaches p.2 c → P c := by
  constructor
  · intro h
    exact ⟨h d (.self d), fun p hp c hc => h c (reaches_iff.mpr (.inr ⟨p, hp, hc⟩))⟩
  · rintro ⟨hd, hparts⟩ c hc
    rcases reaches_iff.mp hc with rfl | ⟨p, hp, h⟩
    · exact hd
    · exact hparts p hp c h

/-- Nothing is wrong if and only if all that is reached can be converted. -/
theorem faults_eq_nil_iff {d : Datum} : d.faults = [] ↔ ∀ c, Reaches d c → c.Supported := by
  induction d using induction_plainParts with
  | parts d ih =>
    rw [forall_reaches_iff, faults_eq_nil_iff_parts]
    exact and_congr_right fun _ => forall₂_congr ih

/-- **Exactly the supported data are converted.**  There is a value if and only if all that is found
through lists, tuples and dicts can be converted, and it is the one of the same shape.  Otherwise
the first thing that is wrong is reported. -/
theorem toValue_converts_supported (d : Datum) :
    ((∃ v, d.toValue = .ok v) ↔ ∀ c, Reaches d c → c.Supported) ∧
      (∀ v, d.toValue = .ok v ↔ StandsFor d v) ∧
      ∀ e, d.toValue = .error e ↔ d.faults.head? = some e := by
  refine ⟨?_, fun v => toValue_eq_ok_iff, ?_⟩
  · rw [← failure?_eq_none_iff, failure?_toValue, List.head?_eq_none_iff, faults_eq_nil_iff]
  · intro e
    rw [← failure?_eq_some_iff, failure?_toValue]

-- the key behind the set is not looked at
example : (Datum.dict [(.str "a", .tuple [.foreign .emptySet]), (.int 1, .nothing)]).toValue
    = .error (.noCounterpart "set") := by
  decide +kernel

end Datum

end JsonLayout
