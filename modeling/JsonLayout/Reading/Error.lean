import JsonLayout.Datum.Error
import JsonLayout.Text.Lines
import JsonLayout.Text.Utf8

/-!
# Texts that cannot be read

## Main definitions

* `Position`: a line and a column, both counted from one.
* `Fault`: what is wrong at some position of a text.
* `ReadError`: why a text, some bytes or a file gives no JSON value.
* `Report`: a message with or without a position, as it is shown.
-/

namespace JsonLayout

/-- A place in a text, by line and column, both counted from one. -/
structure Position where
  line : Nat
  column : Nat
deriving DecidableEq

/-- The place right behind a text.  Only line feeds end a line. -/
def Position.behind (t : Text) : Position :=
  ⟨t.count CodePoint.lineFeed + 1,
    (t.reverse.takeWhile fun c => c ≠ CodePoint.lineFeed).length + 1⟩

/-- What is wrong at some position of a text. -/
inductive Fault where
  | value
  | extraData
  | key
  | colon
  | comma
  | unterminatedString
  | controlCharacter
  | unknownEscape
  | numberedEscape
  | byteOrderMark
deriving DecidableEq

/-- A fault in words. -/
def Fault.message : Fault → Text
  | .value => "Expecting value"
  | .extraData => "Extra data"
  | .key => "Expecting property name enclosed in double quotes"
  | .colon => "Expecting ':' delimiter"
  | .comma => "Expecting ',' delimiter"
  | .unterminatedString => "Unterminated string starting at"
  | .controlCharacter => "Invalid control character at"
  | .unknownEscape => "Invalid \\escape"
  | .numberedEscape => "Invalid \\uXXXX escape"
  | .byteOrderMark => "Unexpected UTF-8 BOM (decode using utf-8-sig)"

/-- Why a source gives no JSON value. -/
inductive ReadError where
  /-- The text has a fault at a position. -/
  | fault (fault : Fault) (position : Position)
  /-- An integer has so many digits, which are too many. -/
  | tooManyDigits (digits : Nat)
  /-- Arrays and objects are opened inside one another too often. -/
  | tooDeep
  /-- The bytes are not UTF-8. -/
  | malformed (reason : Utf8.Malformed)
  /-- The file with this path cannot be read, for a reason given in words. -/
  | unreadable (path reason : Text)
deriving DecidableEq

/-- A message, with a position if both a line and a column are known. -/
structure Report where
  message : Text
  line : Option Int
  column : Option Int
deriving DecidableEq

/-- A report as one text. -/
def Report.text (r : Report) : Text :=
  match r.line, r.column with
  | some line, some column =>
    r.message ++ (": line " : Text) ++ Decimal.ofInt line ++ (" column " : Text) ++
      Decimal.ofInt column
  | _, _ => r.message

namespace ReadError

/-- The report of an error. -/
def report : ReadError → Report
  | .fault f p => ⟨f.message, some p.line, some p.column⟩
  | .tooManyDigits digits =>
    ⟨digitLimitText ++ (": value has " : Text) ++ Decimal.ofNat digits ++ (" digits" : Text) ++
      digitLimitHint, none, none⟩
  | .tooDeep => ⟨"Input is nested too deeply", none, none⟩
  | .malformed reason =>
    ⟨("Input is not valid UTF-8 (" : Text) ++ reason.message ++ (")" : Text), none, none⟩
  | .unreadable path reason =>
    ⟨("Cannot read '" : Text) ++ path ++ ("': " : Text) ++ reason, none, none⟩

/-- An error in words. -/
def message (e : ReadError) : Text := e.report.text

end ReadError

end JsonLayout
