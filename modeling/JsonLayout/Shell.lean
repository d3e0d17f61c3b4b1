import JsonLayout.Session.Basic

/-!
# The shell

The shell reads a session's input line by line.  A JSON text that is complete on its line is
formatted at once; any other is gathered over lines until a blank one, or the end of the input,
submits it.  While nothing is gathered, some lines are commands.

What is written goes to standard output, or to a file between the commands that open and close it.
The file is emptied when it is opened, and what is written to it is in it once it is closed.

## Main definitions

* `Shell`: the state of the shell.
* `Input`: what it reads.
* `Effect`: what it does to the outside.
* `Shell.step`: the answer to one input.
* `Shell.run`: the answers to inputs up to the end.
-/

namespace JsonLayout

/-- A file that output goes to: where it is, and what was written to it. -/
structure Redirect where
  location : Location
  written : Bytes := []
deriving DecidableEq

/-- The state of the shell.  `pending` holds the lines of a JSON text that is not submitted yet. -/
structure Shell where
  session : Session
  files : FileStore
  pending : List Text := []
  redirect : Option Redirect := none
deriving DecidableEq

/-- What the shell reads: a line without its line feed, an interrupt, or the end of the input. -/
inductive Input where
  | line (t : Text)
  | interrupt
  | endOfInput
deriving DecidableEq

/-- What the shell does to the outside: a text goes to standard output, to the file that is open at
a location, or to standard error, or something is told in the log. -/
inductive Effect where
  | out (t : Text)
  | file (location : Location) (t : Text)
  | err (t : Text)
  | log (entry : LogEntry)
deriving DecidableEq

/-- Whether the shell goes on reading. -/
inductive Status where
  | running
  | finished
  | crashed (crash : Crash)
deriving DecidableEq

/-- The answer to an input, with the JSON text that the input submitted, if it did. -/
structure Step where
  shell : Shell
  effects : List Effect := []
  status : Status := .running
  submitted : Option Text := none
deriving DecidableEq

namespace Step

/-- Writes to standard output, wherever output goes. -/
def andOut (step : Step) (t : Text) : Step :=
  match step.status with
  | .crashed _ => step
  | _ => { step with effects := step.effects ++ [.out t] }

/-- The end of the shell. -/
def finish (step : Step) : Step :=
  match step.status with
  | .crashed _ => step
  | _ => { step with status := .finished }

/-- Entries of the log before the effects of a step. -/
def withLog (log : List LogEntry) (step : Step) : Step :=
  { step with effects := log.map .log ++ step.effects }

end Step

namespace Shell

/-! ### Texts of the shell -/

/-- The line that the shell begins with. -/
def banner : Text :=
  "JSON pretty-printer  (:q to quit  |  :history  :reset  |  ?<< <file>  ?>> <file>)\n"

/-- What asks for the first line of an input. -/
def firstPrompt : Text := "JSON> "

/-- What asks for a further line of an input. -/
def nextPrompt : Text := "....> "

/-- What asks for the next line. -/
def prompt (s : Shell) : Text := if s.pending.isEmpty then firstPrompt else nextPrompt

/-- The command that sends output to standard output again; a path after it, and it sends output to
that file. -/
def redirectCommand : Text := "?>>"

/-- How a command begins that sends output to a file. -/
def redirectLead : Text := "?>> "

/-- The message about a file that output cannot go to. -/
def openError (path : Text) (e : SystemError) : Text :=
  ("Error opening '" : Text) ++ path ++ ("': [Errno " : Text) ++ Decimal.ofNat e.code ++
    ("] " : Text) ++ e.message ++ (": " : Text) ++ path.quoted ++ ("\n" : Text)

/-- The lines that a session takes as commands, by how they begin. -/
def isCommand (line : Text) : Bool :=
  line.startsWith ":" || line.startsWith Session.formatFileLead ||
    line.startsWith redirectCommand

/-! ### Output -/

/-- Closes the file that output goes to, if there is one. -/
def close (s : Shell) : Shell :=
  match s.redirect with
  | none => s
  | some r => { s with files := s.files.put r.location r.written, redirect := none }

/-- Writes texts in order to where output goes. -/
def write (s : Shell) : List Text → Step
  | [] => { shell := s }
  | t :: ts =>
    match s.redirect with
    | none =>
      let rest := write s ts
      { rest with effects := .out t :: rest.effects }
    | some r =>
      match contentBytes t with
      | .error crash => { shell := s, status := .crashed crash }
      | .ok bytes =>
        let rest := write { s with redirect := some { r with written := r.written ++ bytes } } ts
        { rest with effects := .file r.location t :: rest.effects }

/-! ### Input -/

/-- Formats a JSON text and writes the output. -/
def submit (s : Shell) (t : Text) : Step :=
  let result := s.session.formatText t
  let s := { s with session := result.value.1 }
  let step : Step :=
    match result.value.2 with
    | .ok out => s.write [out.withFinalLineFeed]
    | .error crash => { shell := s, status := .crashed crash }
  Step.withLog result.log { step with submitted := some t }

/-- The gathered lines as one text. -/
def gathered (s : Shell) : Text := Text.join [CodePoint.lineFeed] s.pending

/-- Submits the gathered lines; none are pending then. -/
def flush (s : Shell) : Step := submit { s with pending := [] } s.gathered

/-- Sends output to the file with a path, and to standard output if that cannot be opened. -/
def redirectTo (s : Shell) (path : Text) : Step :=
  let s := s.close
  match pathBytes path with
  | .error crash => { shell := s, status := .crashed crash }
  | .ok bytes =>
    match s.files.create bytes with
    | .error e => { shell := s, effects := [.err (openError path e)] }
    | .ok (location, files) => { shell := { s with files, redirect := some { location } } }

/-- Hands a line to the session. -/
def command (s : Shell) (line : Text) : Step :=
  let result := s.session.processLine s.files line
  let step := Step.withLog result.log (write { s with session := result.session } result.writes)
  match step.status, result.goesOn with
  | .running, .ok true => step
  | .running, .ok false => { step with status := .finished }
  | .running, .error crash => { step with status := .crashed crash }
  | _, _ => step

/-- Formats a JSON text that is complete on its line; of any other, this is the first line. -/
def beginText (s : Shell) (line : Text) : Step :=
  let read := Logged.read line.strip
  match read.value with
  | .ok _ => Step.withLog read.log (s.submit line.strip)
  | .error _ => { shell := { s with pending := [line] } }

/-- Handles a line while nothing is pending. -/
def freshLine (s : Shell) (line : Text) : Step :=
  let stripped := line.strip
  if stripped.isEmpty then { shell := s }
  else
    match Text.after? redirectLead stripped with
    | some path => s.redirectTo path.strip
    | none =>
      if stripped = redirectCommand then { shell := s.close }
      else if isCommand stripped then s.command stripped
      else s.beginText line

/-- Handles an input, but leaves the file that output goes to open at the end. -/
def handle (s : Shell) : Input → Step
  | .interrupt => { shell := { s with pending := [] }, effects := [.out "\n"] }
  | .endOfInput =>
    let step := if s.pending.isEmpty then { shell := s } else s.flush
    (step.andOut "\n").finish
  | .line t =>
    if s.pending.isEmpty then s.freshLine t
    else if t.strip.isEmpty then s.flush
    else { shell := { s with pending := s.pending ++ [t] } }

/-- The answer to an input.  The file that output goes to is closed when the shell ends, in whatever
way. -/
def step (s : Shell) (input : Input) : Step :=
  let step := s.handle input
  match step.status with
  | .running => step
  | _ => { step with shell := step.shell.close }

/-- The answers to inputs, up to the one that ends the shell; after the last input comes the end of
the input. -/
def run (s : Shell) : List Input → List Step
  | [] => [s.step .endOfInput]
  | input :: inputs =>
    let step := s.step input
    match step.status with
    | .running => step :: run step.shell inputs
    | _ => [step]

end Shell

end JsonLayout
