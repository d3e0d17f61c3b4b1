import JsonLayout.Datum.Error
import JsonLayout.Layout.Options

/-!
# The text of scalars

## Main definitions

* `CodePoint.escaped`, `Options.stringText`: strings between quotes, as they are or escaped.
* `Options.numberText`: numbers; a double that is a whole number below `10 ^ 21` is written as one.
* `Options.scalarText`: all scalars.
-/

namespace JsonLayout

/-- A character as it is written in an escaped string. -/
def CodePoint.escaped (c : CodePoint) : Text :=
  if c = '"' then "\\\""
  else if c = '\\' then "\\\\"
  else if c = '\n' then "\\n"
  else if c = '\r' then "\\r"
  else if c = '\t' then "\\t"
  else if c.val = 0x08 then "\\b"
  else if c.val = 0x0C then "\\f"
  else if c.isControl then ("\\u" : Text) ++ Text.hexadecimal 4 c.val
  else [c]

/-- A double as a number of minimal length: whole numbers below `10 ^ 21` have neither point nor
exponent. -/
def Double.plainText (x : Double) : Text :=
  match x.toInt? with
  | some n => if n.natAbs < 10 ^ 21 then Decimal.ofInt n else x.text
  | none => x.text

/-- A double that is not finite, by its name. -/
def Double.nonFiniteName : Double → Text
  | .infinite true => "-Infinity"
  | .infinite false => "Infinity"
  | _ => "NaN"

namespace Options

/-- A string between double quotes. -/
def stringText (opts : Options) (s : Text) : Text :=
  CodePoint.ofChar '"' ::
    ((if opts.escapeStrings then s.flatMap CodePoint.escaped else s) ++ [CodePoint.ofChar '"'])

/-- The text of a double. -/
def doubleText (opts : Options) (x : Double) : Except DataError Text :=
  if x.isFinite then .ok x.plainText
  else if opts.allowNan then .ok x.nonFiniteName
  else .error (.notFinite x)

/-- The text of what a number holds. -/
def numberText (opts : Options) : Datum → Except DataError Text
  | .bool _ => .error .boolNumber
  | .int n => if Decimal.exceedsLimit n then .error .integerTooLong else .ok (Decimal.ofInt n)
  | .float x => opts.doubleText x
  | d => .error (.notNumber d.typeName)

/-- The text of a scalar. -/
def scalarText (opts : Options) : Datum → Except DataError Text
  | .null => .ok "null"
  | .boolean b => .ok (if b then "true" else "false")
  | .number payload => opts.numberText payload
  | .string s => .ok (opts.stringText s)
  | d => .error (.ofStray .notScalar d)

end Options

end JsonLayout
