import JsonLayout.Proofs.CommandLine.Run
import JsonLayout.Proofs.Files.Encoding

/-!
# How a run ends

A run that is not interactive ends with one of three exit codes, or crashes.  There are five causes
of a crash: an indentation without a number, a source or a file for the result that is no path, an
indentation that has no room in memory, and a surrogate in what is written to a file.  This last one
leaves the file empty.

## Main definitions

* `Settings.Crashes`: the causes of a crash.
* `Ends`: the documented ends.

## Main results

* `Settings.crashes_iff`: a run crashes if and only if there is a cause.
* `runProgram_ends_iff`: so it does not end as documented if and only if there is one.
-/

namespace JsonLayout

/-! ### Causes of a crash -/

namespace Settings

/-- What a run is to format. -/
def operation (s : Settings) (input : Text) (files : FileStore) : Operation :=
  if s.file = [hyphen] then .text input else .file files s.file

/-- **Why a run crashes.** -/
inductive Crashes (s : Settings) (input : Text) (files : FileStore) : Prop where
  /-- The indentation is asked for without a number. -/
  | noIndent (indent : s.indent = none)
  /-- The source is no path. -/
  | noSource (file : s.file ≠ [hyphen]) (noPath : s.file.IsNoPath)
  /-- The innermost lines of the value begin with more spaces than memory holds, and nothing else
  is found wrong before that. -/
  | tooWide {opts : Options} {j : Json} {e : DataError} (options : s.options = .ok opts)
      (value : (s.operation input files).value? = some j)
      (wide : Options.memoryLimit ≤ ((j.nesting * opts.indentWidth : Nat) : Int))
      (format : opts.format j.toDatum = .error e) (answered : e.isAnswered = false)
  /-- The text is to go to no path. -/
  | noOutput {t path : Text} (result : (s.result input files).value = .ok t)
      (output : s.output = some path) (noPath : path.IsNoPath)
  /-- The text is to go to a file that is open, and it has a surrogate. -/
  | surrogate {t path : Text} {bytes : Bytes} {place : Location × FileStore} {c : CodePoint}
      (result : (s.result input files).value = .ok t) (output : s.output = some path)
      (path_ne : path ≠ []) (bytes_eq : pathBytes path = .ok bytes)
      (create_eq : files.create bytes = .ok place) (mem : c ∈ t)
      (surrogate : c.isSurrogate = true)

variable {s : Settings} {input : Text} {files : FileStore}

/-- What a run reads, by whether there is a path. -/
theorem source_cases (s : Settings) (input : Text) (files : FileStore) :
    (s.file ≠ [hyphen] ∧ s.file.IsNoPath ∧ ∃ crash, source s input files = .error crash) ∨
      (s.file = [hyphen] ∨ ¬ s.file.IsNoPath) ∧ ∃ read, source s input files = .ok read ∧
        read.value.toOption = (s.operation input files).value? := by
  rw [source, operation]
  split_ifs with hfile
  · exact .inr ⟨.inl hfile, _, rfl, congrArg Except.toOption (Logged.value_read input)⟩
  · rw [← exists_pathBytes_eq_error_iff]
    rcases Logged.load_cases files s.file with ⟨crash, hpath, hload⟩ | ⟨read, hload, hvalue⟩
    · exact .inl ⟨hfile, ⟨crash, hpath⟩, crash, hload⟩
    · refine .inr ⟨.inr ?_, read, hload, hvalue⟩
      rintro ⟨crash, hpath⟩
      rw [Logged.load, hpath] at hload
      cases hload

/-- The causes on the way to a result: no number, no path, or no room. -/
def HasNoResult (s : Settings) (input : Text) (files : FileStore) : Prop :=
  s.indent = none ∨ (s.file ≠ [hyphen] ∧ s.file.IsNoPath) ∨
    ∃ opts j e, s.options = .ok opts ∧ (s.operation input files).value? = some j ∧
      opts.format j.toDatum = .error e ∧ e.isAnswered = false

/-- **A result is a crash** for three of the causes. -/
theorem result_crash_iff : (∃ crash, (s.result input files).value = .error (.crash crash)) ↔
    s.HasNoResult input files := by
  rw [result, HasNoResult, options]
  cases hindent : s.indent with
  | none => simp
  | some width =>
    simp only [reduceCtorEq, false_or]
    rcases s.source_cases input files with
      ⟨hfile, hpath, crash, hsource⟩ | ⟨hpath, read, hsource, hvalue⟩
    · rw [hsource]
      exact iff_of_true ⟨_, rfl⟩ (.inl ⟨hfile, hpath⟩)
    · rw [hsource, or_iff_right fun h => hpath.elim h.1 fun hn => hn h.2]
      simp only [Logged.value_format, ← hvalue, Options.result_crash_iff, Except.ok.injEq,
        exists_and_left, exists_eq_left']

/-- Each of the causes makes a run crash. -/
theorem Crashes.exists_ending (h : s.Crashes input files) :
    ∃ crash, (s.run input files).ending = .error crash := by
  -- the run does not come to its delivery
  have hresult (hcause : s.HasNoResult input files) :
      ∃ crash, (s.run input files).ending = .error crash := by
    obtain ⟨crash, hcrash⟩ := result_crash_iff.mpr hcause
    exact ⟨crash, by rw [run, hcrash]; rfl⟩
  cases h with
  | noIndent indent => exact hresult (.inl indent)
  | noSource file noPath => exact hresult (.inr (.inl ⟨file, noPath⟩))
  | tooWide options value _ format answered =>
    exact hresult (.inr (.inr ⟨_, _, _, options, value, format, answered⟩))
  | @noOutput t path result output noPath =>
    obtain ⟨crash, hbytes⟩ := exists_pathBytes_eq_error_iff.mpr noPath
    have hne : path ≠ [] := by
      rintro rfl
      obtain ⟨c, hc, -⟩ := noPath
      exact absurd hc List.not_mem_nil
    exact ⟨crash, by simp [run, result, deliver, writeResult, output, hbytes]⟩
  | surrogate result output path_ne bytes_eq create_eq mem surrogate =>
    obtain ⟨crash, hcontent⟩ := exists_contentBytes_eq_error_iff.mpr ⟨_, mem, surrogate⟩
    exact ⟨crash, by
      simp [run, result, deliver, writeResult, output, bytes_eq, create_eq, hcontent]⟩

/-- Nothing else makes a run crash. -/
theorem crashes_of_ending {crash : Crash} (h : (s.run input files).ending = .error crash) :
    s.Crashes input files := by
  have hdelivers := s.delivers_run input files
  generalize hvalue : (s.result input files).value = r at hdelivers
  generalize s.run input files = outcome at h hdelivers
  cases hdelivers with
  | message | printed | unopened | written => cases h
  | crash cause =>
    rcases result_crash_iff.mp ⟨cause, hvalue⟩ with
      hindent | ⟨hfile, hpath⟩ | ⟨opts, j, e, hopts, hj, hformat, hanswered⟩
    · exact .noIndent hindent
    · exact .noSource hfile hpath
    · exact .tooWide hopts hj (wide_of_format_eq_error hformat hanswered) hformat hanswered
  | noPath t output path_ne bytes_eq =>
    exact .noOutput hvalue output (exists_pathBytes_eq_error_iff.mp ⟨_, bytes_eq⟩)
  | emptied output path_ne bytes_eq create_eq content_eq =>
    obtain ⟨c, hc, hsurrogate⟩ := exists_contentBytes_eq_error_iff.mp ⟨_, content_eq⟩
    exact .surrogate hvalue output path_ne bytes_eq create_eq hc hsurrogate

/-- **A run crashes** if and only if there is a cause. -/
theorem crashes_iff :
    s.Crashes input files ↔ ∃ crash, (s.run input files).ending = .error crash :=
  ⟨Crashes.exists_ending, fun ⟨_, h⟩ => crashes_of_ending h⟩

/-- A text that cannot be encoded costs what was in the file. -/
theorem read_eq_nil_of_surrogate {t path : Text} {bytes : Bytes} {place : Location × FileStore}
    (hresult : (s.result input files).value = .ok t) (houtput : s.output = some path)
    (hpath : path ≠ []) (hbytes : pathBytes path = .ok bytes)
    (hcreate : files.create bytes = .ok place) (hsurrogate : ∃ c ∈ t, c.isSurrogate = true) :
    (s.run input files).files.read bytes = .ok [] := by
  obtain ⟨crash, hcontent⟩ := exists_contentBytes_eq_error_iff.mpr hsurrogate
  obtain ⟨htarget, hopened⟩ := FileStore.create_eq_ok_iff.mp hcreate
  have hfiles : (s.run input files).files = files.put place.1 [] := by
    rw [← hopened]
    simp [run, hresult, deliver, writeResult, houtput, hbytes, hcreate, hcontent]
  rw [hfiles]
  exact FileStore.read_put htarget

end Settings

/-! ### Exit codes -/

theorem shownLog_append (verbose : Bool) (log log' : List LogEntry) :
    shownLog verbose (log ++ log') = shownLog verbose log ++ shownLog verbose log' := by
  cases verbose with
  | false => rfl
  | true => exact List.flatMap_append

/-- **The documented ends** of a program. -/
inductive Ends (arguments : List Text) (files : FileStore) : Outcome → Prop where
  /-- Help is asked for. -/
  | help (stop : Settings.ofArguments arguments = .error .help) :
      Ends arguments files { out := helpText, files, ending := .ok 0 }
  /-- The arguments cannot be used. -/
  | usage {message : Text} (stop : Settings.ofArguments arguments = .error (.usage message)) :
      Ends arguments files { err := usageError message, files, ending := .ok 2 }
  /-- All goes well, and nothing is reported but what was done. -/
  | success {s : Settings} {outcome : Outcome} {log : List LogEntry}
      (settings : Settings.ofArguments arguments = .ok s) (ending : outcome.ending = .ok 0)
      (err : outcome.err = shownLog s.verbose log) : Ends arguments files outcome
  /-- Something cannot be read, formatted or written, which is reported. -/
  | failure {s : Settings} {outcome : Outcome} {log : List LogEntry} {message : Text}
      (settings : Settings.ofArguments arguments = .ok s) (ending : outcome.ending = .ok 1)
      (out : outcome.out = [])
      (err : outcome.err = shownLog s.verbose log ++ errorLead ++ message ++ ("\n" : Text))
      (files_eq : outcome.files = files) : Ends arguments files outcome

variable {arguments : List Text} {files : FileStore}

theorem Ends.not_crash {outcome : Outcome} (h : Ends arguments files outcome) :
    ¬ ∃ crash, outcome.ending = .error crash := by
  rintro ⟨crash, hcrash⟩
  cases h with
  | help | usage => cases hcrash
  | success _ ending | failure _ ending => cases ending.symm.trans hcrash

/-- A run that does not crash ends as documented. -/
theorem Settings.ends_run {s : Settings} (hs : ofArguments arguments = .ok s) (input : Text)
    (h : ¬ ∃ crash, (s.run input files).ending = .error crash) :
    Ends arguments files (s.run input files) := by
  have hdelivers := s.delivers_run input files
  generalize (s.result input files).value = r at hdelivers
  generalize s.run input files = outcome at h hdelivers ⊢
  cases hdelivers with
  | crash | noPath | emptied => exact absurd ⟨_, rfl⟩ h
  | message message => exact .failure hs rfl rfl rfl rfl
  | printed => exact .success hs rfl rfl
  | @unopened _ path _ e =>
    have herr (log : Text) : log ++ cannotWrite path e = log ++ errorLead ++
        (("cannot write '" : Text) ++ path ++ ("': " : Text) ++ e.message) ++ ("\n" : Text) := by
      simp [cannotWrite]
    exact .failure hs rfl rfl (herr _) rfl
  | written => exact .success hs rfl (shownLog_append _ _ _).symm

/-- **The program ends as documented** if and only if its arguments do not ask for a run that
crashes. -/
theorem runProgram_ends_iff (arguments : List Text) (input : Text) (files : FileStore)
    (h : ∀ s, Settings.ofArguments arguments = .ok s → s.interactive = false) :
    Ends arguments files (runProgram arguments input files) ↔
      ∀ s, Settings.ofArguments arguments = .ok s → ¬ s.Crashes input.universalLineFeeds files := by
  cases hsettings : Settings.ofArguments arguments with
  | error stop =>
    rw [runProgram_of_stop hsettings]
    refine iff_of_true ?_ nofun
    cases stop with
    | help => exact .help hsettings
    | usage message => exact .usage hsettings
  | ok s =>
    rw [runProgram_of_settings hsettings (h s hsettings)]
    simp only [Except.ok.injEq, forall_eq', Settings.crashes_iff]
    exact ⟨Ends.not_crash, s.ends_run hsettings _⟩

/-- A file for the result and an indentation. -/
theorem ends_of_written_result :
    Ends ["--indent", "4", "-o", "o"] {} (runProgram ["--indent", "4", "-o", "o"] "[1]" {}) := by
  have hsettings : Settings.ofArguments ["--indent", "4", "-o", "o"]
      = .ok { indent := some 4, output := some "o" } := by decide +kernel
  refine (runProgram_ends_iff _ _ _ ?_).mpr ?_
  · rw [hsettings]
    rintro s ⟨⟩
    rfl
  · rw [hsettings]
    rintro s ⟨⟩
    rw [Settings.crashes_iff]
    rintro ⟨crash, hcrash⟩
    have hending : (Settings.run { indent := some 4, output := some "o" }
        (Text.universalLineFeeds "[1]") {}).ending = .ok 0 := by decide +kernel
    cases hending.symm.trans hcrash

/-- Half of a surrogate pair in a string can be printed but not written to a file: the run ends with
no exit code. -/
theorem not_ends_of_surrogate :
    ¬ ∀ (arguments : List Text) (input : Text) (files : FileStore),
      (∀ c ∈ input, c.isSurrogate = false) →
      (∀ s, Settings.ofArguments arguments = .ok s → s.interactive = false) →
      ∃ code, (runProgram arguments input files).ending = .ok code ∧ code ≤ 2 := by
  intro h
  have hsettings : Settings.ofArguments ["-o", "o.json"] = .ok { output := some "o.json" } := by
    decide +kernel
  obtain ⟨code, hcode, -⟩ := h ["-o", "o.json"] "\"\\ud800\"" {} (by decide +kernel) (by
    rw [hsettings]
    rintro s ⟨⟩
    rfl)
  have hcrash : (runProgram ["-o", "o.json"] "\"\\ud800\"" {}).ending
      = .error (.unencodable ⟨⟨0xD800, by decide⟩, 1, 1⟩) := by
    decide +kernel
  cases hcode.symm.trans hcrash

end JsonLayout
