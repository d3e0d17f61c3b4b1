import JsonLayout.CommandLine.Settings
import JsonLayout.Shell

/-!
# The program

The whole program as a function: from the arguments, the standard input and the files to what is
written, the files afterwards, and the exit code.

## Main definitions

* `Outcome`: what a run of the program leaves.
* `runInteractive`: the shell, with a prompt before each line that it reads.
* `runOnce`: one file or the standard input formatted.
* `runProgram`: the program.
-/

namespace JsonLayout

/-- What a run of the program leaves. -/
structure Outcome where
  out : Text := []
  err : Text := []
  files : FileStore
  ending : Except Crash Nat

/-- The lines of a log, if it is shown. -/
def shownLog (verbose : Bool) (log : List LogEntry) : Text :=
  if verbose then log.flatMap fun entry => entry.text ++ ("\n" : Text) else []

namespace Effect

/-- What an effect adds to standard output. -/
def toOut : Effect → Text
  | .out t => t
  | _ => []

/-- What an effect adds to standard error. -/
def toErr (verbose : Bool) : Effect → Text
  | .err t => t
  | .log entry => shownLog verbose [entry]
  | _ => []

end Effect

/-! ### The shell -/

/-- What the steps of a shell add to standard output, with the prompt before each line that is
read. -/
def promptedOut (s : Shell) : List Step → Text
  | [] => []
  | step :: steps =>
    s.prompt ++ step.effects.flatMap Effect.toOut ++ promptedOut step.shell steps

/-- The shell on a standard input. -/
def runInteractive (settings : Settings) (opts : Options) (input : Text) (files : FileStore) :
    Outcome :=
  let start : Shell := { session := { options := opts }, files }
  let steps := start.run (input.lines.map .line)
  let last := steps.getLast?.getD { shell := start }
  { out := Shell.banner ++ promptedOut start steps
    err := steps.flatMap fun step => step.effects.flatMap (Effect.toErr settings.verbose)
    files := last.shell.files
    ending :=
      match last.status with
      | .crashed crash => .error crash
      | _ => .ok 0 }

/-! ### One input -/

/-- The message about a file that the result cannot be written to. -/
def cannotWrite (path : Text) (e : SystemError) : Text :=
  errorLead ++ ("cannot write '" : Text) ++ path ++ ("': " : Text) ++ e.message ++
    ("\n" : Text)

/-- Writes a result to the file with a path: the files after that, and the message if there is no
such file. -/
def writeResult (files : FileStore) (path t : Text) :
    FileStore × Except Crash (Except Text Unit) :=
  match pathBytes path with
  | .error crash => (files, .error crash)
  | .ok bytes =>
    match files.create bytes with
    | .error e => (files, .ok (.error (cannotWrite path e)))
    | .ok (location, files) =>
      match contentBytes t.withFinalLineFeed with
      | .error crash => (files, .error crash)
      | .ok content => (files.put location content, .ok (.ok ()))

/-- What is read: the standard input, or the file that is named. -/
def source (settings : Settings) (input : Text) (files : FileStore) :
    Except Crash (Logged (Except ReadError Json)) :=
  if settings.file = [hyphen] then .ok (Logged.read input) else Logged.load files settings.file

/-- Formats one input. -/
def runOnce (settings : Settings) (opts : Options) (input : Text) (files : FileStore) : Outcome :=
  match source settings input files with
  | .error crash => { files, ending := .error crash }
  | .ok read =>
    let result := read.format opts
    let log := shownLog settings.verbose result.log
    match result.value with
    | .error (.crash crash) => { err := log, files, ending := .error crash }
    | .error (.message message) =>
      { err := log ++ errorLead ++ message ++ ("\n" : Text), files, ending := .ok 1 }
    | .ok t =>
      match settings.output.getD [] with
      | [] => { out := t.withFinalLineFeed, err := log, files, ending := .ok 0 }
      | path =>
        match writeResult files path t with
        | (files, .error crash) => { err := log, files, ending := .error crash }
        | (files, .ok (.error message)) => { err := log ++ message, files, ending := .ok 1 }
        | (files, .ok (.ok ())) =>
          { err := log ++ shownLog settings.verbose [.wrote path], files, ending := .ok 0 }

/-! ### The program -/

/-- The options that settings ask for. -/
def Settings.options (s : Settings) : Except Crash Options :=
  match s.indent with
  | none => .error .noIndent
  | some n => .ok { indentWidth := n.toNat, escapeStrings := s.escape, allowNan := s.allowNan }

/-- The program, on the text of a standard input. -/
def runProgram (arguments : List Text) (input : Text) (files : FileStore) : Outcome :=
  match Settings.ofArguments arguments with
  | .error .help => { out := helpText, files, ending := .ok 0 }
  | .error (.usage message) => { err := usageError message, files, ending := .ok 2 }
  | .ok settings =>
    match settings.options with
    | .error crash => { files, ending := .error crash }
    | .ok opts =>
      let input := input.universalLineFeeds
      if settings.interactive then runInteractive settings opts input files
      else runOnce settings opts input files

end JsonLayout
