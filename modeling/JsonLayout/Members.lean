import JsonLayout.Text.CodePoint

/-!
# Members

The members of an object: pairs of a key and a value in the order of their text, in which a key may
come more than once.  A table has each key once.

## Main definitions

* `Members.last?`: the value of the last member with a key.
* `Members.put`: a table with one value set.
-/

namespace JsonLayout

/-- Keys with values, in order and with repetitions. -/
abbrev Members (α : Type) := List (Text × α)

namespace Members

variable {α : Type}

/-- The keys in order, repetitions included. -/
def keys (ms : Members α) : List Text := ms.map (·.1)

/-- The value of the last member with a key. -/
def last? (ms : Members α) (key : Text) : Option α :=
  (ms.reverse.find? fun m => m.1 = key).map (·.2)

/-- Sets the value of a key, at its place if it has one and else at the end. -/
def put : Members α → Text → α → Members α
  | [], key, v => [(key, v)]
  | m :: ms, key, v => if m.1 = key then (m.1, v) :: ms else m :: put ms key v

end Members

end JsonLayout
