import JsonLayout.Datum.Basic

/-!
# Lists and dicts that are being filled

A list or a dict can stand in another one before it has its own parts.  While it is filled it has a
number, by which the one around it refers to it; the data of all of them are read off when nothing
is left to be added.

## Main definitions

* `Draft`: a list or a dict with the parts it has so far.
* `Slot`: a part of it, either data or another draft by its number.
* `Draft.readAll`: the data of all drafts.
-/

namespace JsonLayout

/-- A list or a dict that is being filled. -/
inductive Draft (α : Type) where
  /-- The items so far, the latest first. -/
  | list (items : List α)
  /-- The keys so far with their values. -/
  | dict (entries : Members α)

namespace Draft

variable {α β : Type}

/-- An empty draft: a dict for the members of an object, and a list for the items of an array. -/
def opening : Datum → Draft α
  | .object _ => .dict []
  | _ => .list []

/-- A draft with one more part.  A dict has it under its key, in place of what was there; a list has
it at the end, whatever the key. -/
def add (key : Text) (a : α) : Draft α → Draft α
  | .list items => .list (a :: items)
  | .dict entries => .dict (entries.put key a)

/-- A draft with every part replaced. -/
def map (f : α → β) : Draft α → Draft β
  | .list items => .list (items.map f)
  | .dict entries => .dict (entries.map fun m => (m.1, f m.2))

/-- The list or dict that a draft has become. -/
def toDatum : Draft Datum → Datum
  | .list items => .list items.reverse
  | .dict entries => .dict (entries.map fun m => (.str m.1, m.2))

end Draft

/-- A part of a draft. -/
inductive Slot where
  | data (d : Datum)
  /-- Another draft, by its number. -/
  | draft (n : Nat)

/-- The data in a part, by those of the draft with each number. -/
def Slot.read (draftData : Nat → Datum) : Slot → Datum
  | .data d => d
  | .draft n => draftData n

/-- The data of drafts, the first of which has the number `n`.  A draft refers to later ones
alone. -/
def Draft.readAll (n : Nat) : List (Draft Slot) → List Datum
  | [] => []
  | draft :: drafts =>
    let later := readAll (n + 1) drafts
    (draft.map (Slot.read fun m => later.getD (m - (n + 1)) .nothing)).toDatum :: later

end JsonLayout
