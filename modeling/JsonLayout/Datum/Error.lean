import JsonLayout.Datum.Decide
import JsonLayout.Datum.Describe

/-!
# Data that cannot be converted or written

## Main definitions

* `DataError`: the causes.
* `DataError.message`: each in words.
* `DataError.isAnswered`: whether that is all that comes of it.
* `DataError.ofStray`: the error about a piece of data that a message has to describe.
-/

namespace JsonLayout

/-- Why a piece of data cannot be converted or written. -/
inductive DataError where
  /-- Data of this type stand for no JSON value. -/
  | noCounterpart (type : Text)
  /-- A key is of this type and not a text. -/
  | keyType (type : Text)
  /-- Plain data where a JSON value has to stand. -/
  | notValue (d : Datum)
  /-- Plain data, or a container, where a scalar has to stand. -/
  | notScalar (d : Datum)
  /-- A truth value where a number has to stand. -/
  | boolNumber
  /-- Something else of this type where a number has to stand. -/
  | notNumber (type : Text)
  /-- A number without JSON text: infinite, or not a number. -/
  | notFinite (x : Double)
  /-- An integer with more digits than are written. -/
  | integerTooLong
  /-- A message would have to show a piece of data that cannot be described. -/
  | undescribable (obstacle : Obstacle)
  /-- Data are nested too deeply to be compared. -/
  | comparedTooDeep
  /-- Data are nested too deeply to be hashed. -/
  | hashedTooDeep
  /-- Data of this type cannot be hashed. -/
  | unhashable (type : Text)
  /-- So many spaces in front of a line that their number is no machine word. -/
  | indentOverflow
  /-- So many spaces in front of a line that they do not fit in memory. -/
  | outOfMemory
deriving DecidableEq

/-- The text of the limit on the digits of an integer, up to where the number of digits is told. -/
def digitLimitText : Text :=
  ("Exceeds the limit (" : Text) ++ Decimal.ofNat Decimal.digitLimit ++
    (" digits) for integer string conversion" : Text)

/-- How to raise the limit on the digits of an integer. -/
def digitLimitHint : Text := "; use sys.set_int_max_str_digits() to increase the limit"

/-- The text of the limit on nesting, up to where the activity is told. -/
def depthText : Text := "maximum recursion depth exceeded"

namespace DataError

/-- The error about a piece of data, unless the message that shows it cannot be written. -/
def ofStray (cause : Datum → DataError) (d : Datum) : DataError :=
  match d.obstacle? Datum.stepLimit with
  | none => cause d
  | some obstacle => .undescribable obstacle

/-- An error in words. -/
def message : DataError → Text
  | .noCounterpart type => ("Object of type " : Text) ++ type ++ " has no JSON representation"
  | .keyType type => ("Object keys must be str, not " : Text) ++ type
  | .notValue d => ("Not a JSON value: " : Text) ++ d.describe
  | .notScalar d => ("Not a JSON scalar: " : Text) ++ d.describe
  | .boolNumber => "bool is not a JSON number"
  | .notNumber type => ("must be real number, not " : Text) ++ type
  | .notFinite x => ("Out of range float value: " : Text) ++ x.text
  | .integerTooLong => digitLimitText ++ digitLimitHint
  | .undescribable .digits => digitLimitText ++ digitLimitHint
  | .undescribable .depth => depthText ++ (" while getting the repr of an object" : Text)
  | .comparedTooDeep => depthText ++ (" in comparison" : Text)
  | .hashedTooDeep => depthText ++ (" while calling a Python object" : Text)
  | .unhashable type => ("unhashable type: '" : Text) ++ type ++ ("'" : Text)
  | .indentOverflow => "cannot fit 'int' into an index-sized integer"
  | .outOfMemory => []

/-- Whether an error is answered with its message.  The others are failures that nothing answers. -/
def isAnswered : DataError → Bool
  | .noCounterpart _ | .keyType _ | .notValue _ | .notScalar _ | .boolNumber => true
  | .notFinite _ | .integerTooLong => true
  | .notNumber _ | .undescribable _ | .comparedTooDeep | .hashedTooDeep | .unhashable _ => false
  | .indentOverflow | .outOfMemory => false

end DataError

end JsonLayout
