import JsonLayout.CommandLine.Run

/-!
# The command

The program on the real standard streams and files.  Before a step is taken, the files that it may
open are looked up; after it, the files that it changed are written.
-/

namespace JsonLayout

/-- A text on an output.  Surrogates, which have no encoding, come out as three bytes each. -/
def writeText (output : IO.FS.Stream) (t : Text) : IO Unit := do
  output.write ⟨(t.flatMap Utf8.encodePoint).toArray⟩
  output.flush

/-- The text of bytes, or nothing if they are not UTF-8. -/
def inputText (bytes : ByteArray) : Text :=
  match Utf8.decode bytes.toList with
  | .ok t => t
  | .error _ => []

/-- The path of a location, as the system takes it. -/
def locationPath (location : Location) : String :=
  (String.fromUTF8? ⟨(location.flatMap fun name => slash :: name).toArray⟩).getD ""

/-- What the system has at a location.  To read a directory fails with the error for one, and so
does to read a file that is not there or may not be read. -/
def lookUp (location : Location) : IO (Option Node) := do
  try
    return some (.file (← IO.FS.readBinFile (locationPath location)).toList)
  catch
    | .inappropriateType _ code _ =>
      return if code.toNat = SystemError.isDirectory.code then some .directory else none
    | .permissionDenied .. => return some .locked
    | _ => return none

/-- The locations that a path leads through. -/
def passed (files : FileStore) (path : Text) : List Location :=
  match pathBytes path with
  | .error _ => []
  | .ok bytes =>
    let visit (visited : List Location) (name : Bytes) : List Location :=
      match FileStore.enter (visited.headD []) name with
      | .ok location => location :: visited
      | .error _ => visited
    (pathNames bytes).foldl visit [files.startOf bytes]

/-- Adds what the system has where a path leads through. -/
def look (files : FileStore) (path : Text) : IO FileStore := do
  let mut files := files
  for location in passed files path do
    if (files.node? location).isNone then
      match ← lookUp location with
      | some node => files := { files with nodes := (location, node) :: files.nodes }
      | none => pure ()
  return files

/-- The working directory, with the directories around it. -/
def currentFiles : IO FileStore := do
  let here := pathNames (toString (← IO.currentDir)).toUTF8.toList
  let nodes := (List.range here.length).map fun n => (here.take (n + 1), Node.directory)
  return { here, nodes }

/-- Writes the files that are different after a step. -/
def save (before after : FileStore) : IO Unit := do
  for (location, node) in after.nodes do
    if before.node? location ≠ some node then
      match node with
      | .file content => IO.FS.writeBinFile (locationPath location) ⟨content.toArray⟩
      | _ => pure ()

/-- Ends the program after a failure that nothing answers. -/
def fail (crash : Crash) : IO UInt32 := do
  writeText (← IO.getStderr) (crash.message ++ ("\n" : Text))
  return 1

/-- The paths in a line of the shell that may be opened. -/
def pathsIn (line : Text) : List Text :=
  [Session.formatFileLead, Shell.redirectLead].filterMap fun lead =>
    (Text.after? lead line.strip).map Text.strip

/-- The shell on standard input, line by line. -/
partial def interact (verbose : Bool) (s : Shell) : IO UInt32 := do
  let output ← IO.getStdout
  writeText output s.prompt
  let line ← (← IO.getStdin).getLine
  let t := Text.universalLineFeeds (Text.ofString line)
  let mut files := s.files
  for path in pathsIn t do
    files ← look files path
  let input : Input := if line.isEmpty then .endOfInput else .line t.dropFinalLineFeeds
  let step := { s with files }.step input
  writeText output (step.effects.flatMap Effect.toOut)
  writeText (← IO.getStderr) (step.effects.flatMap (Effect.toErr verbose))
  save files step.shell.files
  match step.status with
  | .running => interact verbose step.shell
  | .finished => return 0
  | .crashed crash => fail crash

/-- One input formatted. -/
def once (arguments : List Text) (settings : Settings) : IO UInt32 := do
  let mut files ← currentFiles
  for path in [settings.file] ++ settings.output.toList do
    files ← look files path
  let input ←
    if settings.file = [hyphen] then pure (inputText (← (← IO.getStdin).readBinToEnd))
    else pure []
  let outcome := runProgram arguments input files
  writeText (← IO.getStderr) outcome.err
  save files outcome.files
  writeText (← IO.getStdout) outcome.out
  match outcome.ending with
  | .ok code => return .ofNat code
  | .error crash => fail crash

/-- The program on the arguments that it is called with. -/
def runCommand (args : List String) : IO UInt32 := do
  let arguments := args.map Text.ofString
  match Settings.ofArguments arguments with
  | .ok settings =>
    match settings.options with
    | .error crash => fail crash
    | .ok options =>
      if settings.interactive then do
        writeText (← IO.getStdout) Shell.banner
        interact settings.verbose { session := { options }, files := ← currentFiles }
      else once arguments settings
  | .error _ =>
    let outcome := runProgram arguments [] {}
    writeText (← IO.getStdout) outcome.out
    writeText (← IO.getStderr) outcome.err
    match outcome.ending with
    | .ok code => return .ofNat code
    | .error crash => fail crash

end JsonLayout

/-- The command. -/
def main (args : List String) : IO UInt32 := JsonLayout.runCommand args
