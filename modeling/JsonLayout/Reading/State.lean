import JsonLayout.Reading.Error
import JsonLayout.Token.Scan

/-!
# The state of a reader

Tokens are read one at a time.  Between two of them, what has been read is a stack of containers
that are open, and the state says which tokens may come next.  What is made of the tokens is left
open: a reader builds values of any type that has all it takes.

## Main definitions

* `JsonLike`: types whose values a reader can build.
* `Open`: an array or object that is open, with what it holds so far.
* `Expecting`: what may come next.
* `Expecting.step`: the state after one more token.
* `Expecting.refuse`: the error where there is no token.
-/

namespace JsonLayout

/-- A type with something for each kind of JSON value. -/
class JsonLike (α : Type) where
  null : α
  bool (b : Bool) : α
  number (n : Number) : α
  string (s : Text) : α
  array (items : List α) : α
  /-- An object, from its members in order, repeated keys included. -/
  object (members : List (Text × α)) : α

instance : JsonLike Json where
  null := .null
  bool := .bool
  number := .number
  string := .string
  array := .array
  object := .object

/-- A container that is open and inside which a value is read.  What it holds so far is listed
latest first; an object has read the key of the value. -/
inductive Open (α : Type) where
  | array (items : List α)
  | object (members : List (Text × α)) (key : Text)
deriving DecidableEq

/-- What may come next, and the containers that are open around it, innermost first. -/
inductive Expecting (α : Type) where
  /-- A value. -/
  | value (around : List (Open α))
  /-- The first item of an array, or its end. -/
  | item (around : List (Open α))
  /-- The first key of an object, or its end. -/
  | firstKey (around : List (Open α))
  /-- A further key of an object. -/
  | key (around : List (Open α)) (members : List (Text × α))
  /-- The colon after a key. -/
  | colon (around : List (Open α)) (members : List (Text × α)) (key : Text)
  /-- What goes on after a complete value. -/
  | done (j : α) (around : List (Open α))
deriving DecidableEq

/-- Why reading stops: a fault with the text from it on, or an error that has no position. -/
inductive Refusal where
  | fault (fault : Fault) (rest : Text)
  | tooManyDigits (digits : Nat)
  | tooDeep
deriving DecidableEq

/-- The most containers that may be open inside one another. -/
def nestingLimit : Nat := 990

namespace Expecting

variable {α : Type}

/-- Opens a container inside others. -/
def enter (around : List (Open α)) (inside : Expecting α) : Except Refusal (Expecting α) :=
  if around.length < nestingLimit then .ok inside else .error .tooDeep

variable [JsonLike α]

/-- Reads the first token of a value. -/
def beginValue (around : List (Open α)) (rest : Text) : Token → Except Refusal (Expecting α)
  | .openArray => enter around (.item around)
  | .openObject => enter around (.firstKey around)
  | .string s => .ok (.done (JsonLike.string s) around)
  | .null => .ok (.done JsonLike.null around)
  | .bool b => .ok (.done (JsonLike.bool b) around)
  | .number n => .ok (.done (JsonLike.number n) around)
  | _ => .error (.fault .value rest)

/-- Reads what follows a complete value. -/
def continueAfter (j : α) (rest : Text) : List (Open α) → Token → Except Refusal (Expecting α)
  | [], _ => .error (.fault .extraData rest)
  | .array items :: around, token =>
    match token with
    | .comma => .ok (.value (.array (j :: items) :: around))
    | .closeArray => .ok (.done (JsonLike.array (j :: items).reverse) around)
    | _ => .error (.fault .comma rest)
  | .object members k :: around, token =>
    match token with
    | .comma => .ok (.key around ((k, j) :: members))
    | .closeObject => .ok (.done (JsonLike.object ((k, j) :: members).reverse) around)
    | _ => .error (.fault .comma rest)

/-- The state after one more token, with which the text `rest` begins. -/
def step (rest : Text) : Expecting α → Token → Except Refusal (Expecting α)
  | .value around, token => beginValue around rest token
  | .item around, token =>
    match token with
    | .closeArray => .ok (.done (JsonLike.array []) around)
    | token => beginValue (.array [] :: around) rest token
  | .firstKey around, token =>
    match token with
    | .closeObject => .ok (.done (JsonLike.object []) around)
    | .string s => .ok (.colon around [] s)
    | _ => .error (.fault .key rest)
  | .key around members, token =>
    match token with
    | .string s => .ok (.colon around members s)
    | _ => .error (.fault .key rest)
  | .colon around members k, token =>
    match token with
    | .colon => .ok (.value (.object members k :: around))
    | _ => .error (.fault .colon rest)
  | .done j around, token => continueAfter j rest around token

/-- The refusal of a string that starts where `rest` does. -/
def refuseString (rest : Text) : StringFault → Refusal
  | .unterminated => .fault .unterminatedString rest
  | .controlCharacter inside => .fault .controlCharacter inside
  | .unknownEscape inside => .fault .unknownEscape inside
  | .badNumber inside => .fault .numberedEscape inside

/-- The refusal where a value has to start and `rest` begins with no token. -/
def refuseValue (rest : Text) : NoToken → Refusal
  | .missing => .fault .value rest
  | .string fault => refuseString rest fault
  | .integer digits => .tooManyDigits digits

/-- The refusal where a key has to start and `rest` begins with no token. -/
def refuseKey (rest : Text) : NoToken → Refusal
  | .string fault => refuseString rest fault
  | _ => .fault .key rest

/-- The refusal where `rest` begins with no token, unless a value is complete and the text is at its
end. -/
def finish (rest : Text) : Expecting α → NoToken → Except Refusal α
  | .value _, noToken => .error (refuseValue rest noToken)
  | .item _, noToken => .error (refuseValue rest noToken)
  | .firstKey _, noToken => .error (refuseKey rest noToken)
  | .key _ _, noToken => .error (refuseKey rest noToken)
  | .colon _ _ _, _ => .error (.fault .colon rest)
  | .done j [], _ => if rest.isEmpty then .ok j else .error (.fault .extraData rest)
  | .done _ (_ :: _), _ => .error (.fault .comma rest)

end Expecting

end JsonLayout
