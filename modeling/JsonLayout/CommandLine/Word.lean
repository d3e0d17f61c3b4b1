import JsonLayout.Text.Numeral
import JsonLayout.Text.Quoted

/-!
# The words of a command line

Each argument is an option, or no option, before it is asked what the options do.  A long option may
be shortened as long as only one fits, and a value may be attached to an option.

## Main definitions

* `Choice`: the options there are, with their names.
* `Word`: an argument, classified.
* `Word.classify`: the class of an argument.
* `Word.ofArguments`: all arguments classified; none is an option after `--`.
-/

namespace JsonLayout

/-- What an option chooses. -/
inductive Choice where
  | help
  | interactive
  | output
  | indent
  | escape
  | allowNan
  | verbose
deriving DecidableEq

namespace Choice

/-- The names of all options, in the order of the usage. -/
def names : List (Text × Choice) :=
  [("-h", .help), ("--help", .help), ("-i", .interactive), ("--interactive", .interactive),
    ("-o", .output), ("--output", .output), ("--indent", .indent), ("--escape", .escape),
    ("--allow-nan", .allowNan), ("-v", .verbose), ("--verbose", .verbose)]

/-- The option with a name. -/
def ofName? (name : Text) : Option Choice := (names.find? fun e => e.1 = name).map (·.2)

/-- Whether an option takes a value. -/
def takesValue : Choice → Bool
  | .output | .indent => true
  | _ => false

/-- An option as messages name it. -/
def label (c : Choice) : Text := Text.join "/" ((names.filter fun e => e.2 = c).map (·.1))

end Choice

/-- An argument of a command line. -/
inductive Word where
  /-- An argument that is no option. -/
  | plain (t : Text)
  /-- An option, under the name that it was found by, with the text attached to it: what stands
  behind an equals sign, or right behind a short name. -/
  | option (choice : Choice) (name : Text) (attached : Option Text)
  /-- An argument that looks like an option but is none. -/
  | unknown (t : Text)
  /-- The argument after which there are no options. -/
  | separator
deriving DecidableEq

/-- The hyphen that options begin with. -/
def hyphen : CodePoint := '-'

/-- The argument after which there are no options. -/
def doubleHyphen : Text := [hyphen, hyphen]

namespace Word

/-- A text cut at its first equals sign, if it has one. -/
def cutAtEquals (t : Text) : Option (Text × Text) :=
  match t.dropWhile fun c => c ≠ CodePoint.ofChar '=' with
  | [] => none
  | _ :: after => some (t.takeWhile fun c => c ≠ CodePoint.ofChar '=', after)

/-- Whether a text writes a negative number: a hyphen and digits, or digits around a point with one
at least behind it.  A line feed at the end is overlooked. -/
def isNegativeNumber (t : Text) : Bool :=
  let isDigit (c : CodePoint) := c.decimalValue?.isSome
  match t with
  | [] => false
  | c :: body =>
    let body := if body.getLast? = some '\n' then body.dropLast else body
    let whole := body.takeWhile isDigit
    c = hyphen &&
      match body.dropWhile isDigit with
      | [] => !whole.isEmpty
      | d :: fraction => d = '.' && !fraction.isEmpty && fraction.all isDigit

/-- The options that an argument may be short for, with what is attached to them. -/
def candidates (t : Text) : List (Choice × Text × Option Text) :=
  if t.startsWith doubleHyphen then
    let (start, attached) : Text × Option Text :=
      match cutAtEquals t with
      | some (start, value) => (start, some value)
      | none => (t, none)
    (Choice.names.filter fun e => Text.startsWith e.1 start).map fun e => (e.2, e.1, attached)
  else
    (Choice.names.filter fun e => e.1 = t.take 2).map fun e => (e.2, e.1, some (t.drop 2))

/-- The message about an argument that several options fit. -/
def ambiguous (t : Text) (names : List Text) : Text :=
  ("ambiguous option: " : Text) ++ t ++ (" could match " : Text) ++ Text.join ", " names

/-- The class of an argument, or the message that tells why it has none. -/
def classify (t : Text) : Except Text Word :=
  if t.head? ≠ some hyphen then .ok (.plain t)
  else
    match Choice.ofName? t with
    | some choice => .ok (.option choice t none)
    | none =>
      if t.length = 1 then .ok (.plain t)
      else
        match (cutAtEquals t).bind fun (name, value) =>
          (Choice.ofName? name).map fun choice => (choice, name, value) with
        | some (choice, name, value) => .ok (.option choice name (some value))
        | none =>
          match candidates t with
          | [(choice, name, attached)] => .ok (.option choice name attached)
          | [] =>
            if isNegativeNumber t || t.contains (CodePoint.ofChar ' ') then .ok (.plain t)
            else .ok (.unknown t)
          | several => .error (ambiguous t (several.map (·.2.1)))

/-- Arguments classified in order. -/
def ofArguments : List Text → Except Text (List Word)
  | [] => .ok []
  | t :: ts =>
    if t = doubleHyphen then .ok (.separator :: ts.map .plain)
    else do
      let word ← classify t
      let words ← ofArguments ts
      return word :: words

end Word

end JsonLayout
