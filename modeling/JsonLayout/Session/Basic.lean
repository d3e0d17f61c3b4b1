import JsonLayout.Session.Log
import JsonLayout.Text.Blank

/-!
# Sessions

A session formats texts and files one after another.  It keeps the texts that were formatted without
an error, and the last input with its output.

## Main definitions

* `Session`: the state of a session.
* `Session.formatText`, `Session.formatFile`, `Session.reset`: its operations.
* `Session.historyLines`: the listing of the texts it keeps.
* `Session.processLine`: a line of input, which is a command or a JSON text.
-/

namespace JsonLayout

/-- The state of a session.  The oldest text of the history comes first. -/
structure Session where
  options : Options
  history : List Text := []
  lastInput : Option Text := none
  lastOutput : Option Text := none
deriving DecidableEq

/-- How the output for a failed input begins. -/
def errorLead : Text := "error: "

namespace Session

/-- The output for a result: the layout, or the message of what went wrong.  The session keeps it as
the last output; a crash has none, and the one before it stays. -/
def answer (s : Session) : Except Failure Text → Session × Except Crash Text
  | .ok t => ({ s with lastOutput := some t }, .ok t)
  | .error (.message t) =>
    let out := errorLead ++ t
    ({ s with lastOutput := some out }, .ok out)
  | .error (.crash crash) => (s, .error crash)

/-- Formats a text.  It is added to the history if it has a layout. -/
def formatText (s : Session) (t : Text) : Logged (Session × Except Crash Text) :=
  let result := (Logged.read t).format s.options
  let history :=
    match result.value with
    | .ok _ => s.history ++ [t]
    | .error _ => s.history
  ⟨{ s with lastInput := some t, history }.answer result.value,
    result.log ++ LogEntry.ofFailure .textFailed result.value⟩

/-- Formats the file with a path.  The history stays as it is.  Of a path that names no file, only
the fact that it was the last input is kept. -/
def formatFile (s : Session) (files : FileStore) (path : Text) :
    Logged (Session × Except Crash Text) :=
  let s := { s with lastInput := some path }
  match Logged.load files path with
  | .error crash => ⟨(s, .error crash), []⟩
  | .ok source =>
    let result := source.format s.options
    ⟨s.answer result.value, result.log ++ LogEntry.ofFailure (.fileFailed path) result.value⟩

/-- Forgets the history and the last input and output. -/
def reset (s : Session) : Session := { options := s.options }

/-! ### Lines of input -/

/-- The listing of the history: the number of each text, counted from `n`, and its first line. -/
def entryLines (n : Nat) : List Text → List Text
  | [] => []
  | t :: history =>
    (("  " : Text) ++ Decimal.ofNat n ++ (": " : Text) ++ t.strip.firstLine) ::
      entryLines (n + 1) history

/-- The lines of the listing of the history. -/
def historyLines (s : Session) : List Text :=
  if s.history.isEmpty then ["  (no history)"] else entryLines 1 s.history

/-- What a line of input leads to: the session after it, what is written in order, and whether the
session goes on. -/
structure LineResult where
  session : Session
  writes : List Text := []
  goesOn : Except Crash Bool := .ok true
  log : List LogEntry := []

/-- How a command begins that formats a file. -/
def formatFileLead : Text := "?<< "

/-- Handles a line: a command, or else a JSON text. -/
def processLine (s : Session) (files : FileStore) (line : Text) : LineResult :=
  let line := line.strip
  if line.isEmpty then { session := s }
  else if line = (":q" : Text) ∨ line = (":quit" : Text) then
    { session := s, goesOn := .ok false }
  else if line = (":history" : Text) then
    { session := s, writes := s.historyLines.flatMap fun l => [l, [CodePoint.lineFeed]] }
  else if line = (":reset" : Text) then { session := s.reset }
  else
    let result :=
      match Text.after? formatFileLead line with
      | some path => s.formatFile files path.strip
      | none => s.formatText line
    match result.value with
    | (s, .ok out) => { session := s, writes := [out.withFinalLineFeed], log := result.log }
    | (s, .error crash) => { session := s, goesOn := .error crash, log := result.log }

end Session

end JsonLayout
