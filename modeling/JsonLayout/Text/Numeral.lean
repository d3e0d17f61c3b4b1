import JsonLayout.Text.Blank

/-!
# Numerals of any script

A number typed on a command line may use the decimal digits of any script, mixed freely, a sign,
blanks around it, and single underscores between digits.

## Main definitions

* `CodePoint.zeros`: the zero of each run of ten decimal digits.
* `Text.toInt?`: the integer that a text writes.
-/

namespace JsonLayout

/-- The code points of the decimal digit zero, by the digit values of Unicode 14: in each script the
other nine digits follow their zero. -/
def CodePoint.zeros : List Nat := [
  0x30, 0x660, 0x6F0, 0x7C0, 0x966, 0x9E6, 0xA66, 0xAE6, 0xB66, 0xBE6, 0xC66, 0xCE6, 0xD66,
  0xDE6, 0xE50, 0xED0, 0xF20, 0x1040, 0x1090, 0x17E0, 0x1810, 0x1946, 0x19D0, 0x1A80, 0x1A90,
  0x1B50, 0x1BB0, 0x1C40, 0x1C50, 0xA620, 0xA8D0, 0xA900, 0xA9D0, 0xA9F0, 0xAA50, 0xABF0, 0xFF10,
  0x104A0, 0x10D30, 0x11066, 0x110F0, 0x11136, 0x111D0, 0x112F0, 0x11450, 0x114D0, 0x11650,
  0x116C0, 0x11730, 0x118E0, 0x11950, 0x11C50, 0x11D50, 0x11DA0, 0x16A60, 0x16AC0, 0x16B50,
  0x1D7CE, 0x1D7D8, 0x1D7E2, 0x1D7EC, 0x1D7F6, 0x1E140, 0x1E2F0, 0x1E950, 0x1FBF0]

/-- What a decimal digit of any script counts. -/
def CodePoint.decimalValue? (c : CodePoint) : Option Nat :=
  (zeros.find? fun z => z ≤ c.val && c.val < z + 10).map fun z => c.val - z

namespace Text

/-- White space around a number: that of ASCII, and beyond ASCII every blank. -/
def isNumeralBlank (c : CodePoint) : Bool :=
  if c.val < 0x80 then (0x09 ≤ c.val && c.val ≤ 0x0D) || c.val == 0x20 else c.isBlank

/-- The most digits that a number may have. -/
def numeralLimit : Nat := 4300

/-- The digits that a text writes, with single underscores between them: `none` for anything else.
`separated` says that an underscore may stand here, just after a digit. -/
def numeralDigits? (separated : Bool) : Text → Option (List Nat)
  | [] => if separated then some [] else none
  | c :: t =>
    if c = '_' then
      if separated then numeralDigits? false t else none
    else
      match c.decimalValue? with
      | some d => (numeralDigits? true t).map (d :: ·)
      | none => none

/-- The natural number with the given digits, most significant first. -/
def ofDigits (ds : List Nat) : Nat := ds.foldl (fun n d => 10 * n + d) 0

/-- The integer that a text writes: a sign or none, then digits of any script, with blanks allowed
around it all. -/
def toInt? (t : Text) : Option Int :=
  let trimmed := ((t.dropWhile isNumeralBlank).reverse.dropWhile isNumeralBlank).reverse
  let magnitude? (body : Text) : Option Int :=
    match numeralDigits? false body with
    | some ds => if ds.length ≤ numeralLimit then some (ofDigits ds : Int) else none
    | none => none
  match trimmed with
  | [] => none
  | c :: body =>
    if c = '-' then (magnitude? body).map (- ·)
    else if c = '+' then magnitude? body
    else magnitude? (c :: body)

end Text

end JsonLayout
