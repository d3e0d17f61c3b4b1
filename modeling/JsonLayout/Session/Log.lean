import JsonLayout.Files.Encoding
import JsonLayout.Layout.Render
import JsonLayout.Reading.Read

/-!
# Reading and writing with a log

Each step tells what it did in a log, which a verbose program shows.

## Main definitions

* `LogEntry`: one thing that was done, and `LogEntry.text`, its line in the log.
* `Logged`: a value and what was done to get it.
* `Logged.read`, `Logged.load`: reading a text, or the file with a path.
* `Failure`: what comes of an error, a message or a crash.
* `Logged.format`: the layout of what was read.
-/

namespace JsonLayout

/-- One thing that was done. -/
inductive LogEntry where
  | parsed (characters : Nat)
  | loaded (bytes : Nat) (path : Text)
  | formatted (type : Text) (characters : Nat)
  | textFailed (message : Text)
  | fileFailed (path message : Text)
  | wrote (path : Text)
deriving DecidableEq

/-- The line of an entry in the log. -/
def LogEntry.text : LogEntry → Text
  | .parsed n =>
    ("DEBUG json_pretty.reader: parsed " : Text) ++ Decimal.ofNat n ++
      (" characters of JSON" : Text)
  | .loaded n path =>
    ("DEBUG json_pretty.reader: read " : Text) ++ Decimal.ofNat n ++ (" bytes from " : Text) ++ path
  | .formatted type n =>
    ("DEBUG json_pretty.formatter: formatted " : Text) ++ type ++ (" into " : Text) ++
      Decimal.ofNat n ++ (" characters" : Text)
  | .textFailed message => ("DEBUG json_pretty.repl: formatting failed: " : Text) ++ message
  | .fileFailed path message =>
    ("DEBUG json_pretty.repl: formatting " : Text) ++ path ++ (" failed: " : Text) ++ message
  | .wrote path => ("DEBUG json_pretty.repl: wrote " : Text) ++ path

/-- What comes of an error: a message that answers it, or a crash. -/
inductive Failure where
  | message (t : Text)
  | crash (crash : Crash)
deriving DecidableEq

/-- What comes of an error about data. -/
def Failure.ofData (e : DataError) : Failure :=
  if e.isAnswered then .message e.message else .crash (.unanswered e)

/-- The entry about a failure that is answered with a message. -/
def LogEntry.ofFailure (entry : Text → LogEntry) : Except Failure Text → List LogEntry
  | .error (.message t) => [entry t]
  | _ => []

/-- A value, and what was done to get it, in order. -/
structure Logged (α : Type) where
  value : α
  log : List LogEntry := []
deriving DecidableEq

namespace Logged

/-- Reads a text. -/
def read (t : Text) : Logged (Except ReadError Json) :=
  match readText t with
  | .ok j => ⟨.ok j, [.parsed t.length]⟩
  | .error e => ⟨.error e, []⟩

/-- Reads bytes. -/
def readBytes (bytes : Bytes) : Logged (Except ReadError Json) :=
  match Utf8.decode (Utf8.dropByteOrderMark bytes) with
  | .ok t => read t
  | .error reason => ⟨.error (.malformed reason), []⟩

/-- Reads the file with a path. -/
def load (files : FileStore) (path : Text) :
    Except Crash (Logged (Except ReadError Json)) := do
  let bytes ← pathBytes path
  match files.read bytes with
  | .error e => return ⟨.error (.unreadable path e.message), []⟩
  | .ok content =>
    let result := readBytes content
    return ⟨result.value, .loaded content.length path :: result.log⟩

/-- The layout of what was read. -/
def format (opts : Options) (source : Logged (Except ReadError Json)) :
    Logged (Except Failure Text) :=
  match source.value with
  | .error e => ⟨.error (.message e.message), source.log⟩
  | .ok j =>
    match opts.format j.toDatum with
    | .error e => ⟨.error (.ofData e), source.log⟩
    | .ok t => ⟨.ok t, source.log ++ [.formatted j.toDatum.typeName t.length]⟩

end Logged

end JsonLayout
