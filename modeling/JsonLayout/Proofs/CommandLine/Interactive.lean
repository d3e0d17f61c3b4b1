import JsonLayout.Proofs.CommandLine.Arrangement
import JsonLayout.Proofs.Shell.Routing
import JsonLayout.Proofs.Text.LineEnds
import JsonLayout.Proofs.Text.Lines

/-!
# The interactive program

An interactive run is a run of the shell on the lines of the standard input.  It differs from a
shell that is given a source to read from in its prompts: there is one before each read, also before
the one that finds the end of the input, and it goes to standard output wherever output goes.

A shell that reads from a source drops all line feeds that end what it read, and an interactive one
drops a single one.  Nothing that is read line by line ends with two of them.

## Main definitions

* `Text.readings`: what is read from a text line by line.
* `Moment.said`, `Shell.complaints`, `Shell.filesAfter`: what a run of the shell leaves.

## Main results

* `Text.map_dropFinalLineFeeds_readings`: the lines of a text, from what is read of it.
* `promptedOut_map_step`: the prompts in a run.
* `CommandLine.runProgram_interactive`: the program is the shell with its prompts.
-/

namespace JsonLayout

/-! ### Reading line by line -/

namespace Text

/-- What is read from a text line by line: each time up to a line feed and with it, and at last what
is left, if anything is. -/
def readings : Text → List Text
  | [] => []
  | c :: t =>
    if c = CodePoint.lineFeed then [c] :: readings t
    else
      match readings t with
      | [] => [[c]]
      | line :: rest => (c :: line) :: rest

/-- Reading line by line gives the whole text. -/
theorem flatten_readings (t : Text) : t.readings.flatten = t := by
  induction t with
  | nil => rfl
  | cons c t ih =>
    rw [readings]
    split
    · rw [List.flatten_cons, ih]
      rfl
    · cases hrest : readings t with
      | nil =>
        rw [hrest] at ih
        rw [← ih]
        rfl
      | cons line rest =>
        rw [hrest] at ih
        rw [← ih]
        rfl

theorem lines_lineFeed_cons (t : Text) : lines (CodePoint.lineFeed :: t) = [] :: lines t := by
  obtain ⟨line, rest, hsplit⟩ := exists_splitLines t
  rw [lines, lines, splitLines_cons_lineFeed, hsplit, List.getLast?_cons_cons,
    List.dropLast_cons_cons]
  split <;> rfl

theorem lines_cons {c : CodePoint} (hc : c ≠ CodePoint.lineFeed) (t : Text) :
    lines (c :: t) = match lines t with
      | [] => [[c]]
      | line :: rest => (c :: line) :: rest := by
  obtain ⟨line, rest, hsplit⟩ := exists_splitLines t
  rw [lines, lines, splitLines_cons hc hsplit, hsplit]
  cases rest with
  | nil => cases line <;> rfl
  | cons next rest =>
    rw [List.getLast?_cons_cons, List.getLast?_cons_cons, List.dropLast_cons_cons,
      List.dropLast_cons_cons]
    split <;> rfl

theorem dropFinalLineFeeds_lineFeed : dropFinalLineFeeds [CodePoint.lineFeed] = [] := rfl

theorem dropFinalLineFeeds_cons {c : CodePoint} (hc : c ≠ CodePoint.lineFeed) (t : Text) :
    dropFinalLineFeeds (c :: t) = c :: dropFinalLineFeeds t := by
  have hlast : [c].dropWhile (fun d => decide (d = CodePoint.lineFeed)) = [c] :=
    List.dropWhile_cons_of_neg (by simp [hc])
  rw [dropFinalLineFeeds, dropFinalLineFeeds, List.reverse_cons, List.dropWhile_append]
  split
  · next hempty =>
    rw [List.isEmpty_iff] at hempty
    rw [hlast, hempty]
    rfl
  · exact List.reverse_concat ..

/-- **The lines of a text** are what is read from it line by line, without the line feeds that end
it. -/
theorem map_dropFinalLineFeeds_readings (t : Text) :
    t.readings.map dropFinalLineFeeds = t.lines := by
  induction t with
  | nil => rfl
  | cons c t ih =>
    rw [readings]
    split
    · next hc =>
      rw [hc, List.map_cons, ih, lines_lineFeed_cons]
      rfl
    · next hc =>
      rw [lines_cons hc, ← ih]
      cases readings t with
      | nil => exact congrArg (fun t => [t]) (dropFinalLineFeeds_cons hc [])
      | cons line rest => exact congrArg (· :: _) (dropFinalLineFeeds_cons hc line)

end Text

/-! ### What a run of the shell leaves -/

/-- What a moment adds to standard output. -/
def Moment.said (m : Moment) : Text := m.step.effects.flatMap Effect.toOut

namespace Shell

/-- What a run adds to standard error. -/
def complaints (s : Shell) (verbose : Bool) (inputs : List Input) : Text :=
  (s.run inputs).flatMap fun step => step.effects.flatMap (Effect.toErr verbose)

/-- The files after a run. -/
def filesAfter (s : Shell) (inputs : List Input) : FileStore :=
  ((s.run inputs).getLast?.getD { shell := s }).shell.files

variable {s : Shell} {inputs : List Input}

theorem transcript_eq (s : Shell) (inputs : List Input) :
    s.transcript inputs = Shell.banner ++ (s.moments inputs).flatMap Moment.said := by
  rw [transcript, run_eq_map_moments, List.flatMap_map]
  rfl

/-- A run without a crash does not end with one: what comes before the end goes on. -/
theorem completes_iff : s.Completes inputs ↔
    ∀ step ∈ (s.run inputs).getLast?, step.status.isCrashed = false := by
  refine ⟨fun h step hstep => h step (List.mem_of_getLast? hstep), fun h => ?_⟩
  induction inputs generalizing s with
  | nil =>
    intro step hstep
    obtain rfl := List.mem_singleton.mp hstep
    exact h _ rfl
  | cons input inputs ih =>
    rw [Completes]
    rw [run] at h ⊢
    split at h
    · next hrunning =>
      rw [List.forall_mem_cons]
      refine ⟨by rw [hrunning]; rfl, ih fun step hstep => h step ?_⟩
      rw [List.getLast?_cons, Option.mem_def.mp hstep]
      rfl
    · intro step hstep
      obtain rfl := List.mem_singleton.mp hstep
      exact h _ rfl

theorem completes_iff_last : s.Completes inputs ↔
    ((s.run inputs).getLast?.getD { shell := s }).status.isCrashed = false := by
  rw [completes_iff]
  cases (s.run inputs).getLast? with
  | none => exact iff_of_true (fun _ h => nomatch h) rfl
  | some step => simp

end Shell

/-- **There is one prompt** before what each moment of a run adds to standard output. -/
theorem promptedOut_map_step (s : Shell) (inputs : List Input) :
    promptedOut s ((s.moments inputs).map Moment.step)
      = (s.moments inputs).flatMap fun m => m.shell.prompt ++ m.said := by
  induction inputs generalizing s with
  | nil => rfl
  | cons input inputs ih =>
    by_cases hrunning : (s.step input).status = .running
    · rw [Shell.moments_of_running hrunning, List.map_cons, promptedOut, List.flatMap_cons]
      exact congrArg _ (ih (s.step input).shell)
    · rw [Shell.moments_of_not_running hrunning]
      rfl

/-! ### The program -/

/-- An interactive run, by the run of the shell. -/
theorem runInteractive_eq (s : Settings) (opts : Options) (input : Text) (files : FileStore) :
    let start : Shell := { session := { options := opts }, files }
    let inputs := input.lines.map Input.line
    (runInteractive s opts input files).out = Shell.banner ++
        (start.moments inputs).flatMap (fun m => m.shell.prompt ++ m.said) ∧
      (runInteractive s opts input files).err = start.complaints s.verbose inputs ∧
      (runInteractive s opts input files).files = start.filesAfter inputs ∧
      (start.Completes inputs ∧ (runInteractive s opts input files).ending = .ok 0 ∨
        ¬ start.Completes inputs ∧
          ∃ crash, (runInteractive s opts input files).ending = .error crash) := by
  intro start inputs
  refine ⟨?_, rfl, rfl, ?_⟩
  · rw [← promptedOut_map_step, ← Shell.run_eq_map_moments]
    rfl
  · -- the program looks at the last step only
    rw [Shell.completes_iff_last, Bool.not_eq_false]
    simp only [runInteractive]
    split
    · next crash hcrash => exact .inr ⟨by rw [hcrash]; rfl, crash, rfl⟩
    · next hnone =>
      refine .inl ⟨?_, rfl⟩
      cases hlast : (start.run inputs |>.getLast?.getD { shell := start }).status with
      | crashed crash => exact absurd hlast (hnone crash)
      | running => rfl
      | finished => rfl

namespace CommandLine

variable {c : CommandLine} {arguments : List Text} {n : Nat} {input : Text} {files : FileStore}

theorem runProgram_of_interactive (h : c.IsWritten arguments) (hinteractive : c.interactive = true)
    (hwidth : c.width? = some (n : Int)) (hreturn : CodePoint.ofChar '\r' ∉ input)
    (files : FileStore) :
    runProgram arguments input files = runInteractive (c.settingsWith n)
      { indentWidth := n, escapeStrings := c.escape, allowNan := c.allowNan } input files := by
  have hsettings := (ofArguments_eq h).trans (settings_of_width hwidth)
  simp only [runProgram, hsettings, Settings.options, settingsWith, Int.toNat_natCast, hinteractive,
    Text.universalLineFeeds_eq_self hreturn, if_true]

/-- **The interactive program** is the shell with its prompts. On an input without carriage returns,

* a shell that reads the same lines from a source shows the banner and what its moments say,
* the program shows the same, with one prompt in front of what each moment says,
* standard error and the files are the same, and the program returns zero unless the shell crashes,
  and
* neither a file to be formatted nor one for the result makes a difference. -/
theorem runProgram_interactive (h : c.IsWritten arguments) (hinteractive : c.interactive = true)
    (hwidth : c.width? = some (n : Int)) (hreturn : CodePoint.ofChar '\r' ∉ input)
    (files : FileStore) :
    let s : Shell := ⟨⟨⟨n, c.escape, c.allowNan⟩, [], none, none⟩, files, [], none⟩
    let inputs := input.readings.map fun t => Input.line t.dropFinalLineFeeds
    let outcome := runProgram arguments input files
    s.transcript inputs = Shell.banner ++ (s.moments inputs).flatMap Moment.said ∧
      outcome.out = Shell.banner ++ (s.moments inputs).flatMap (fun m =>
        (if m.shell.pending = [] then ("JSON> " : Text) else "....> ") ++ m.said) ∧
      outcome.err = s.complaints c.verbose inputs ∧ outcome.files = s.filesAfter inputs ∧
      (s.Completes inputs ∧ outcome.ending = .ok 0 ∨
        ¬ s.Completes inputs ∧ ∃ crash, outcome.ending = .error crash) ∧
      ∀ file output arguments', IsWritten { c with file, output } arguments' →
        runProgram arguments' input files = outcome := by
  intro s inputs outcome
  have hinputs : inputs = input.lines.map Input.line := by
    rw [← Text.map_dropFinalLineFeeds_readings, List.map_map]
    rfl
  have houtcome := runProgram_of_interactive h hinteractive hwidth hreturn files
  obtain ⟨hout, herr, hfiles, hending⟩ := runInteractive_eq (c.settingsWith n)
    { indentWidth := n, escapeStrings := c.escape, allowNan := c.allowNan } input files
  rw [← houtcome, ← hinputs] at hout herr hfiles hending
  refine ⟨s.transcript_eq inputs, ?_, herr, hfiles, hending, ?_⟩
  · simp only [← List.isEmpty_iff]
    exact hout
  · intro file output arguments' h'
    exact (runProgram_of_interactive h' hinteractive hwidth hreturn files).trans houtcome.symm

/-- An interactive command line with an indentation, and with two files that do not count. -/
def interactiveSample : CommandLine where
  file := some (.ofText "x.json" (by decide))
  output := some (.ofText "y" (by decide))
  indent := some (.ofText "3" (by decide))
  interactive := true

theorem isWritten_interactiveSample :
    interactiveSample.IsWritten ["x.json", "-o", "y", "-i", "--indent", "3"] := by
  have houtput : Choice.IsCalled .output "-o" := by decide
  have hindent : Choice.IsCalled .indent "--indent" := by decide
  refine ⟨_, .refl _, [["x.json"], ["-o", "y"], ["-i"], ["--indent", "3"]], ?_, rfl⟩
  exact .cons (.file _) (.cons (.apart (i := .output _) rfl houtput) (.cons (.flag rfl (by decide))
    (.cons (.apart (i := .indent _) rfl hindent) .nil)))

/-- A text over two lines, and one that goes to a file, on a last line without a line feed: the
prompts are on standard output. -/
theorem runProgram_interactive_two_texts :
    let outcome := runProgram ["x.json", "-o", "y", "-i", "--indent", "3"] "[0,\n1]\n\n?>> o\n2" {}
    outcome.ending = .ok 0 ∧ outcome.err = [] ∧
      outcome.out = Shell.banner ++
        ("JSON> ....> ....> [\n   0,\n   1\n]\nJSON> JSON> JSON> \n" : Text) ∧
      outcome.files.read [0x6F] = .ok [0x32, 0x0A] := by
  intro outcome
  have hreturn : CodePoint.ofChar '\r' ∉ ("[0,\n1]\n\n?>> o\n2" : Text) := by decide
  obtain ⟨-, hout, herr, hfiles, hending, -⟩ :=
    runProgram_interactive (n := 3) isWritten_interactiveSample rfl (by decide) hreturn {}
  refine ⟨?_, herr.trans (by decide +kernel), hout.trans (by decide +kernel), ?_⟩
  · exact hending.elim (·.2) fun h => absurd (by decide +kernel) h.1
  · rw [show outcome.files = _ from hfiles]
    decide +kernel

end CommandLine

end JsonLayout
