import JsonLayout.Datum.Draft
import JsonLayout.Datum.Error

/-!
# Plain data and JSON values

## Main definitions

* `Datum.toValue`: the JSON value that a piece of plain data stands for.  JSON values inside it stay
  as they are, and the first fault in reading order is reported.
* `Datum.walk`: the conversion of a container, with the containers around it on a stack.
* `Datum.toPlain`: the plain data that a JSON value stands for, with each key once.
* `Datum.Filling.run`: the same for a container, with what is still to be filled on a stack.
-/

namespace JsonLayout.Datum

/-! ### From plain data -/

/-- The JSON value of a piece of data that has no parts to convert, and nothing for a list, a tuple
or a dict.  A truth value is no number here, and a JSON value stays as it is. -/
def leaf? : Datum → Except DataError (Option Datum)
  | .nothing => .ok (some .null)
  | .bool b => .ok (some (.boolean b))
  | .int n => .ok (some (.number (.int n)))
  | .float x => .ok (some (.number (.float x)))
  | .str s => .ok (some (.string s))
  | .list _ | .tuple _ | .dict _ => .ok none
  | .foreign f => .error (.noCounterpart f.typeName)
  | .null => .ok (some .null)
  | .boolean b => .ok (some (.boolean b))
  | .number payload => .ok (some (.number payload))
  | .string s => .ok (some (.string s))
  | .array items => .ok (some (.array items))
  | .object members => .ok (some (.object members))

/-- Whether a piece of data becomes an object. -/
def isDict : Datum → Bool
  | .dict _ => true
  | _ => false

/-- The parts of a list, a tuple or a dict, in order.  Those of a dict come with their keys. -/
def plainParts : Datum → List (Option Datum × Datum)
  | .list items | .tuple items => items.map fun d => (none, d)
  | .dict entries => entries.map fun e => (some e.1, e.2)
  | _ => []

/-- The text of the key of a part, if there is a key. -/
def keyText? : Option Datum → Except DataError (Option Text)
  | none => .ok none
  | some (.str s) => .ok (some s)
  | some key => .error (.keyType key.typeName)

/-- A container that is being converted. -/
structure Frame where
  /-- Whether it becomes an object. -/
  isDict : Bool
  /-- The parts that are still to be converted, with their keys unchecked. -/
  pending : List (Option Datum × Datum)
  /-- The converted parts, the latest first. -/
  done : List (Option Text × Datum)
  /-- The key of the container in the one around it. -/
  key : Option Text

namespace Frame

/-- A container before its first part. -/
def opening (d : Datum) (key : Option Text) : Frame := ⟨d.isDict, d.plainParts, [], key⟩

/-- A container with one more part converted. -/
def add (frame : Frame) (part : Option Text × Datum) : Frame :=
  { frame with done := part :: frame.done }

/-- What the converted parts make up. -/
def value (frame : Frame) : Datum :=
  if frame.isDict then .object (frame.done.reverse.map fun p => (p.1.getD [], p.2))
  else .array (frame.done.reverse.map (·.2))

end Frame

/-- The size of parts that are still to be converted. -/
noncomputable def pendingSize : List (Option Datum × Datum) → Nat
  | [] => 0
  | (_, d) :: parts => sizeOf d + 1 + pendingSize parts

/-- The size of what containers wait for, and one more for each of them. -/
noncomputable def outerSize : List Frame → Nat
  | [] => 0
  | frame :: outer => pendingSize frame.pending + 1 + outerSize outer

theorem pendingSize_items_lt (items : List Datum) :
    pendingSize (items.map fun d => (none, d)) < sizeOf items := by
  induction items with
  | nil => exact Nat.zero_lt_one
  | cons d items ih =>
    rw [List.map_cons, pendingSize, List.cons.sizeOf_spec]
    omega

theorem pendingSize_entries_lt (entries : List (Datum × Datum)) :
    pendingSize (entries.map fun e => (some e.1, e.2)) < sizeOf entries := by
  induction entries with
  | nil => exact Nat.zero_lt_one
  | cons e entries ih =>
    rw [List.map_cons, pendingSize, List.cons.sizeOf_spec, Prod.mk.sizeOf_spec]
    omega

/-- A piece of data is larger than its parts together. -/
theorem pendingSize_plainParts_lt (d : Datum) : pendingSize d.plainParts < sizeOf d := by
  cases d with
  | list items =>
    have := pendingSize_items_lt items
    rw [plainParts, Datum.list.sizeOf_spec]
    omega
  | tuple items =>
    have := pendingSize_items_lt items
    rw [plainParts, Datum.tuple.sizeOf_spec]
    omega
  | dict entries =>
    have := pendingSize_entries_lt entries
    rw [plainParts, Datum.dict.sizeOf_spec]
    omega
  | _ => exact Nat.pos_of_ne_zero (by simp)

/-- Goes through the pending parts of a container, and then through those of the containers around
it, from the inside out.  A part that is a container itself is gone through before what comes behind
it; the key of a part is looked at just before the part. -/
def walk (frame : Frame) (outer : List Frame) : Except DataError Datum :=
  match _h : frame.pending with
  | [] =>
    match outer with
    | [] => .ok frame.value
    | around :: outer => walk (around.add (frame.key, frame.value)) outer
  | (key, d) :: pending =>
    match keyText? key with
    | .error e => .error e
    | .ok key =>
      match d.leaf? with
      | .error e => .error e
      | .ok (some v) => walk ({ frame with pending }.add (key, v)) outer
      | .ok none => walk (.opening d key) ({ frame with pending } :: outer)
termination_by pendingSize frame.pending + outerSize outer
decreasing_by
  · simp only [_h, Frame.add, pendingSize, outerSize]
    omega
  · simp only [_h, Frame.add, pendingSize]
    omega
  · have := pendingSize_plainParts_lt d
    simp only [_h, Frame.opening, pendingSize, outerSize]
    omega

/-- The JSON value that a piece of data stands for. -/
def toValue (d : Datum) : Except DataError Datum :=
  match d.leaf? with
  | .error e => .error e
  | .ok (some v) => .ok v
  | .ok none => walk (.opening d none) []

/-! ### To plain data -/

/-- The plain data of a JSON value that is no container.  A number gives what it holds. -/
def plainScalar : Datum → Except DataError Datum
  | .null => .ok .nothing
  | .boolean b => .ok (.bool b)
  | .number payload => .ok payload
  | .string s => .ok (.str s)
  | d => .error (.ofStray .notValue d)

/-- The parts of a JSON array or object with their keys.  An item of an array has no key, and the
empty one stands for it. -/
def keyedParts : Datum → List (Text × Datum)
  | .array items => items.map fun d => ([], d)
  | .object members => members
  | _ => []

/-- A conversion to plain data on its way. -/
structure Filling where
  /-- The lists and dicts made so far, by their numbers. -/
  drafts : Array (Draft Slot)
  /-- The arrays and objects that are still to be gone through, the latest first, each with the
  number of the draft that its parts belong to. -/
  waiting : List (Datum × Nat)

/-- Adds a part to a draft.  For an array or an object an empty draft is made, which stands in its
place at once and is filled later. -/
def Filling.add (target : Nat) (filling : Filling) (part : Text × Datum) :
    Except DataError Filling :=
  if part.2.isContainer then
    let child := filling.drafts.size
    .ok {
      drafts :=
        (filling.drafts.push (.opening part.2)).modify target (.add part.1 (.draft child))
      waiting := (part.2, child) :: filling.waiting }
  else do
    let d ← part.2.plainScalar
    return { filling with drafts := filling.drafts.modify target (.add part.1 (.data d)) }

/-- Adding parts, the arrays and objects among them come to wait in front of the others, the last
of them first. -/
theorem Filling.waiting_foldlM {target : Nat} {parts : List (Text × Datum)}
    {filling filled : Filling} (h : parts.foldlM (add target) filling = .ok filled) :
    filled.waiting.map (·.1)
      = ((parts.map (·.2)).filter isContainer).reverse ++ filling.waiting.map (·.1) := by
  induction parts generalizing filling with
  | nil =>
    cases h
    rfl
  | cons part parts ih =>
    rw [List.foldlM_cons] at h
    cases hadd : filling.add target part with
    | error e =>
      rw [hadd] at h
      cases h
    | ok next =>
      rw [hadd] at h
      rw [ih h, List.map_cons, List.filter_cons]
      rw [add] at hadd
      split at hadd
      · next hc =>
        cases hadd
        simp [hc]
      · next hc =>
        cases hd : part.2.plainScalar with
        | error e => simp [hd, bind, Except.bind] at hadd
        | ok d =>
          simp only [hd, bind, Except.bind, pure, Except.pure, Except.ok.injEq] at hadd
          rw [← hadd, if_neg hc]

theorem map_keyedParts (d : Datum) : d.keyedParts.map (·.2) = d.children := by
  cases d <;> simp [keyedParts, children, Function.comp_def]

/-- Goes through the arrays and objects that wait, from the latest on.  Those that are found in one
of them are gone through before the others. -/
def Filling.run (filling : Filling) : Except DataError (Array (Draft Slot)) :=
  match _h : filling.waiting with
  | [] => .ok filling.drafts
  | (source, target) :: waiting =>
    match _hadd : source.keyedParts.foldlM (add target) { filling with waiting } with
    | .error e => .error e
    | .ok next => run next
termination_by itemsSize (filling.waiting.map (·.1))
decreasing_by
  have := itemsSize_filter_le isContainer source.children
  have := itemsSize_children_lt source
  simp only [waiting_foldlM _hadd, map_keyedParts, itemsSize_append, itemsSize_reverse, _h,
    List.map_cons, itemsSize]
  omega

/-- The plain data that a JSON value stands for.  All of it has to be JSON, the members that a later
one with the same key hides included. -/
def toPlain (d : Datum) : Except DataError Datum :=
  if d.isContainer then do
    let drafts ← Filling.run ⟨#[.opening d], [(d, 0)]⟩
    return (Draft.readAll 0 drafts.toList).headD .nothing
  else d.plainScalar

end JsonLayout.Datum
