import JsonLayout.Datum.Basic
import JsonLayout.Text.Blank
import JsonLayout.Token.NumberLiteral
import JsonLayout.Token.StringBody

/-!
# Tokens

The words of a JSON text.  Scanning takes one token off the front of a text that does not begin with
white space, or tells why there is none.

## Main definitions

* `Token`: brackets, separators, and scalars with their values.
* `NoToken`: the end of the text, something that starts no token, or a token with a fault in it.
* `Token.scan`: the first token of a text and the text after it.
-/

namespace JsonLayout

/-- A token of a JSON text. -/
inductive Token where
  | openArray
  | closeArray
  | openObject
  | closeObject
  | comma
  | colon
  | string (s : Text)
  | null
  | bool (b : Bool)
  | number (n : Number)
deriving DecidableEq

/-- Why a text begins with no token. -/
inductive NoToken where
  /-- It is at its end, or begins with something else. -/
  | missing
  /-- It begins with a string that has a fault. -/
  | string (fault : StringFault)
  /-- It begins with an integer of so many digits, which are too many. -/
  | integer (digits : Nat)
deriving DecidableEq

namespace Token

/-- The tokens that are words, with their spelling. -/
def words : List (Text × Token) :=
  [("null", .null), ("true", .bool true), ("false", .bool false),
    ("NaN", .number (.double .nan)), ("Infinity", .number (.double (.infinite false))),
    ("-Infinity", .number (.double (.infinite true)))]

/-- The word that a text begins with, and the text after it. -/
def scanWord (t : Text) : Option (Token × Text) :=
  words.findSome? fun (spelling, token) => (Text.after? spelling t).map fun rest => (token, rest)

/-- The number that a text begins with, and the text after it. -/
def scanNumber (t : Text) : Except NoToken (Token × Text) :=
  match NumberLiteral.scan t with
  | none => .error .missing
  | some (literal, rest) =>
    match literal.value with
    | .ok n => .ok (.number n, rest)
    | .error digits => .error (.integer digits)

/-- The brackets and separators. -/
def ofMark? (c : CodePoint) : Option Token :=
  if c = '[' then some .openArray
  else if c = ']' then some .closeArray
  else if c = '{' then some .openObject
  else if c = '}' then some .closeObject
  else if c = ',' then some .comma
  else if c = ':' then some .colon
  else none

/-- The first token of a text, and the text after it. -/
def scan : Text → Except NoToken (Token × Text)
  | [] => .error .missing
  | c :: t =>
    match ofMark? c with
    | some mark => .ok (mark, t)
    | none =>
      if c = '"' then
        match StringUnit.scan [] t with
        | .ok (s, rest) => .ok (.string s, rest)
        | .error fault => .error (.string fault)
      else
        match scanWord (c :: t) with
        | some (word, rest) => .ok (word, rest)
        | none => scanNumber (c :: t)

end Token

end JsonLayout
