import JsonLayout.Datum.Basic
import JsonLayout.Reading.Read

/-!
# Plain data from a text

A text may be read for its plain data, to be converted to a JSON value afterwards.  Until then an
object is a table that lists the members as they stand in the text, so a key may be there more than
once.

## Main definitions

* `parseText`: the plain data of a text.
-/

namespace JsonLayout

instance : JsonLike Datum where
  null := .nothing
  bool := .bool
  number := Number.toDatum
  string := .str
  array := .list
  object members := .dict (members.map fun m => (.str m.1, m.2))

/-- The plain data of a text. -/
def parseText (t : Text) : Except ReadError Datum := readAs Datum t

end JsonLayout
