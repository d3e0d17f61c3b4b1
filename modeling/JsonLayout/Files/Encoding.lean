import JsonLayout.Crash
import JsonLayout.Files.Store

/-!
# Paths and contents as bytes

A path is a text; a text with a null character names no file, and neither a path nor a content can
hold a surrogate that stands alone.  These are not errors of the system: nothing answers them, and
the program ends.

## Main definitions

* `pathBytes`, `contentBytes`: the bytes of a path and of what is written to a file.
-/

namespace JsonLayout

/-- The bytes of a path. -/
def pathBytes (path : Text) : Except Crash Bytes :=
  match Utf8.encodePath 0 path with
  | .error run => .error (.unencodable run)
  | .ok bytes => if bytes.contains 0 then .error .embeddedNull else .ok bytes

/-- The bytes that a text is written to a file as. -/
def contentBytes (t : Text) : Except Crash Bytes := (Utf8.encode t).mapError .unencodable

end JsonLayout
