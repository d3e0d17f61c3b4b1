import JsonLayout.CommandLine.Word

/-!
# The settings of a command line

Options are made out as the option parser does that comes with release 3.11.8 and those before it.

## Main definitions

* `Settings`: what the arguments of a command line ask for.
* `Stop`: why a command line asks for nothing.
* `Settings.ofArguments`: the settings of a command line.
* `usageText`, `helpText`: the texts that tell how to use the program.
-/

namespace JsonLayout

/-- What the arguments of a command line ask for.  No indentation stands for one that was asked for
without a number. -/
structure Settings where
  file : Text := "-"
  interactive : Bool := false
  output : Option Text := none
  indent : Option Int := some 2
  escape : Bool := false
  allowNan : Bool := false
  verbose : Bool := false
deriving DecidableEq

/-- Why the program does not start: help is asked for, or the arguments cannot be used. -/
inductive Stop where
  | help
  | usage (message : Text)
deriving DecidableEq

/-- How the program is called. -/
def usageText : Text :=
  "usage: json-pretty [-h] [-i] [-o OUTPUT] [--indent INDENT] [--escape]
                   [--allow-nan] [-v]
                   [file]
"

/-- What the program does, and with which arguments. -/
def helpText : Text :=
  usageText ++
    ("
Pretty-print JSON with 2-space indentation, keeping key order.

positional arguments:
  file                  JSON file to format ('-' or omitted reads stdin).

options:
  -h, --help            show this help message and exit
  -i, --interactive     Start the interactive shell.
  -o OUTPUT, --output OUTPUT
                        Write the result to this file instead of stdout.
  --indent INDENT       Spaces per indentation level (default: 2).
  --escape              Escape quotes, backslashes and control characters
                        inside strings.
  --allow-nan           Write NaN/Infinity instead of failing on non-finite
                        numbers.
  -v, --verbose         Enable debug logging.
" : Text)

/-- A usage error as it is shown. -/
def usageError (message : Text) : Text :=
  usageText ++ ("json-pretty: error: " : Text) ++ message ++ ("\n" : Text)

/-- The usage error about an option. -/
def Stop.ofOption (choice : Choice) (message : Text) : Stop :=
  .usage (("argument " : Text) ++ choice.label ++ (": " : Text) ++ message)

namespace Settings

/-- The value of an option, unless it is the argument after which there are no options: that is
dropped wherever it stands.  So it is up to release 3.11.8 of the option parser; later ones keep it
as the value where it is attached. -/
def valueOf (t : Text) : Option Text := if t = doubleHyphen then none else some t

/-- The settings after one more option, with its value if it takes one. -/
def choose (s : Settings) (value : Text) : Choice → Except Stop Settings
  | .help => .error .help
  | .interactive => .ok { s with interactive := true }
  | .output => .ok { s with output := valueOf value }
  | .indent =>
    match valueOf value with
    | none => .ok { s with indent := none }
    | some t =>
      match t.toInt? with
      | some n => .ok { s with indent := some n }
      | none => .error (.ofOption .indent (("invalid int value: " : Text) ++ t.quoted))
  | .escape => .ok { s with escape := true }
  | .allowNan => .ok { s with allowNan := true }
  | .verbose => .ok { s with verbose := true }

/-- The options that are written together behind one hyphen, in order, with the value of the last.
`wanting` tells that this last one takes a value that is not attached to it. -/
structure Cluster where
  chosen : List (Choice × Text) := []
  wanting : Option Choice := none
deriving DecidableEq

/-- The refusal of text that is attached to an option without a value. -/
def ignored (choice : Choice) (t : Text) : Stop :=
  .ofOption choice (("ignored explicit argument " : Text) ++ t.quoted)

/-- The options that begin with `choice` and go on in the text attached to it: behind an option with
a short name and without a value, each further character is an option with a short name.  A
character that is none is refused as up to release 3.11.8; later ones have another message. -/
def cluster (choice : Choice) (short : Bool) : Text → Except Stop Cluster
  | [] =>
    if choice.takesValue then .ok { chosen := [(choice, [])] } else .error (ignored choice [])
  | c :: t =>
    if choice.takesValue then .ok { chosen := [(choice, c :: t)] }
    else if !short then .error (ignored choice (c :: t))
    else
      match Choice.ofName? [hyphen, c] with
      | none => .error (ignored choice (c :: t))
      | some next =>
        if t.isEmpty then
          .ok (if next.takesValue then { chosen := [(choice, [])], wanting := some next }
            else { chosen := [(choice, []), (next, [])] })
        else do
          let rest ← cluster next true t
          return { rest with chosen := (choice, []) :: rest.chosen }

/-- The options of a word. -/
def clusterOf (choice : Choice) (name : Text) : Option Text → Except Stop Cluster
  | none =>
    .ok (if choice.takesValue then { wanting := some choice } else { chosen := [(choice, [])] })
  | some attached => cluster choice (name.length == 2) attached

/-- The settings after several options. -/
def chooseAll (s : Settings) : List (Choice × Text) → Except Stop Settings
  | [] => .ok s
  | (choice, value) :: chosen => do chooseAll (← s.choose value choice) chosen

/-- What has been made of the words so far: whether the file has been named, and the words that
nothing was made of. -/
structure Progress where
  settings : Settings := {}
  named : Bool := false
  extras : List Text := []
deriving DecidableEq

/-- Makes something of each word in order. -/
def take (p : Progress) : List Word → Except Stop Progress
  | [] => .ok p
  | .unknown t :: words => take { p with extras := p.extras ++ [t] } words
  | .separator :: words =>
    if p.named then take { p with extras := p.extras ++ [doubleHyphen] } words
    else
      match words with
      | .plain t :: words =>
        take { p with settings := { p.settings with file := t }, named := true } words
      | words => take { p with named := true } words
  | .plain t :: words =>
    if p.named then take { p with extras := p.extras ++ [t] } words
    else
      let p := { p with settings := { p.settings with file := t }, named := true }
      match words with
      | .separator :: words => take p words
      | words => take p words
  | .option choice name attached :: words => do
    let c ← clusterOf choice name attached
    match c.wanting with
    | none =>
      let settings ← p.settings.chooseAll c.chosen
      take { p with settings } words
    | some last =>
      match words with
      | .plain t :: words =>
        let settings ← p.settings.chooseAll (c.chosen ++ [(last, t)])
        take { p with settings } words
      | _ => .error (.ofOption last "expected one argument")

/-- The settings that arguments ask for. -/
def ofArguments (arguments : List Text) : Except Stop Settings := do
  let words ← (Word.ofArguments arguments).mapError .usage
  let p ← take {} words
  if !p.extras.isEmpty then
    .error (.usage (("unrecognized arguments: " : Text) ++ Text.join " " p.extras))
  else if p.settings.indent.any (· < 0) then .error (.usage "--indent must be >= 0")
  else return p.settings

end Settings

end JsonLayout
