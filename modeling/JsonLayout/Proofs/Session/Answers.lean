import JsonLayout.Proofs.Files.Encoding
import JsonLayout.Proofs.Session.Result
import JsonLayout.Proofs.Session.Runs

/-!
# What a session answers

A session answers a text or a file with its layout or with a message, and keeps the answer next to
what it was asked for.  There are two causes for which it has no answer: a path that is none, and a
value whose innermost lines have no room in memory.  What it was asked for then stands next to an
older answer.

## Main definitions

* `FileStore.readJson`: what is read from a file.
* `Options.Answers`: the answer to what was read.
* `Operation.Breaks`: the causes for which there is none.

## Main results

* `Session.perform_crash_iff`: an operation has no answer if and only if there is a cause.
* `Session.formatFile_answers_iff`: what is kept of a file, with an answer and without one.
-/

namespace JsonLayout

/-! ### Files -/

/-- What is read from the file with a path: a value or the reason why there is none, unless the text
is no path. -/
def FileStore.readJson (files : FileStore) (path : Text) :
    Except Crash (Except ReadError Json) :=
  (pathBytes path).map fun bytes =>
    match files.read bytes with
    | .error e => .error (.unreadable path e.message)
    | .ok content => readBytes content

namespace FileStore

variable {files : FileStore} {path : Text}

theorem readJson_eq_map_load (files : FileStore) (path : Text) :
    files.readJson path = (Logged.load files path).map Logged.value := by
  rw [readJson, Logged.load]
  cases pathBytes path with
  | error crash => rfl
  | ok bytes =>
    dsimp only [bind, Except.bind, Except.map]
    cases files.read bytes with
    | error e => rfl
    | ok content => exact congrArg Except.ok (Logged.value_readBytes content).symm

theorem readJson_eq_error_iff : (∃ crash, files.readJson path = .error crash) ↔ path.IsNoPath := by
  rw [← exists_pathBytes_eq_error_iff, readJson]
  cases pathBytes path <;> simp [Except.map]

theorem value?_of_readJson {value : Except ReadError Json} (h : files.readJson path = .ok value) :
    (Operation.file files path).value? = value.toOption := by
  rw [readJson_eq_map_load] at h
  rcases Logged.load_cases files path with ⟨crash, -, hload⟩ | ⟨source, hload, hvalue⟩
  · rw [hload] at h
    cases h
  · rw [hload] at h
    cases h
    exact hvalue.symm

end FileStore

/-! ### Answers -/

/-- **The answer** to what was read: the layout of a value, or a message. -/
inductive Options.Answers (opts : Options) : Except ReadError Json → Text → Prop where
  | layout {j : Json} {t : Text} (format : opts.format j.toDatum = .ok t) :
      Answers opts (.ok j) t
  | unread (e : ReadError) : Answers opts (.error e) (errorLead ++ e.message)
  | refused {j : Json} {e : DataError} (format : opts.format j.toDatum = .error e)
      (answered : e.isAnswered = true) : Answers opts (.ok j) (errorLead ++ e.message)

/-- **Why an operation has no answer.** -/
inductive Operation.Breaks (opts : Options) : Operation → Prop where
  /-- The text that names the file is no path. -/
  | noPath {files : FileStore} {path : Text} (noPath : path.IsNoPath) :
      Breaks opts (.file files path)
  /-- The innermost lines of the value begin with more spaces than memory holds, and nothing else
  is found wrong before that. -/
  | tooWide {o : Operation} {j : Json} {e : DataError} (value : o.value? = some j)
      (wide : Options.memoryLimit ≤ ((j.nesting * opts.indentWidth : Nat) : Int))
      (format : opts.format j.toDatum = .error e) (answered : e.isAnswered = false) :
      Breaks opts o

namespace Session

variable {s : Session} {result : Except Failure Text}

theorem answer_of_ok {out : Text} (h : (s.answer result).2 = .ok out) :
    s.answer result = ({ s with lastOutput := some out }, .ok out) := by
  rcases result with (message | crash) | t <;> cases h <;> rfl

theorem answer_of_error {crash : Crash} (h : (s.answer result).2 = .error crash) :
    s.answer result = (s, .error crash) := by
  rcases result with (message | crash) | t <;> cases h
  rfl

theorem answer_eq_error_iff :
    (∃ crash, (s.answer result).2 = .error crash) ↔ ∃ crash, result = .error (.crash crash) := by
  rcases result with (message | crash) | t <;> simp [answer]

/-- What is answered is an answer. -/
theorem answers_of_answer {opts : Options} {value : Except ReadError Json} {out : Text}
    (h : (s.answer (opts.result value)).2 = .ok out) : opts.Answers value out := by
  cases value with
  | error e =>
    cases h
    exact .unread e
  | ok j =>
    rw [Options.result.eq_def] at h
    cases hformat : opts.format j.toDatum with
    | ok t =>
      simp only [hformat, Except.mapError, answer, Except.ok.injEq] at h
      exact h ▸ .layout hformat
    | error e =>
      simp only [hformat, Except.mapError, Failure.ofData] at h
      split_ifs at h with hanswered
      · cases h
        exact .refused hformat hanswered
      · cases h

/-! ### Operations -/

theorem formatText_value (s : Session) (t : Text) :
    ∃ history, (s.formatText t).value =
      answer { s with lastInput := some t, history } (s.options.result (readText t)) := by
  rw [formatText, Logged.value_format, Logged.value_read]
  exact ⟨_, rfl⟩

/-- What becomes of a file that is read, whatever is in it. -/
theorem formatFile_of_readJson {files : FileStore} {path : Text}
    {value : Except ReadError Json} (h : files.readJson path = .ok value) :
    (s.formatFile files path).value =
      answer { s with lastInput := some path } (s.options.result value) := by
  rw [FileStore.readJson_eq_map_load] at h
  rw [formatFile]
  cases hload : Logged.load files path with
  | error crash =>
    rw [hload] at h
    cases h
  | ok source =>
    rw [hload] at h
    cases h
    exact congrArg (answer _) (Logged.value_format s.options source)

/-- What becomes of a text that is no path. -/
theorem formatFile_of_readJson_eq_error {files : FileStore} {path : Text} {crash : Crash}
    (h : files.readJson path = .error crash) :
    (s.formatFile files path).value = ({ s with lastInput := some path }, .error crash) := by
  rw [FileStore.readJson_eq_map_load] at h
  rw [formatFile]
  cases hload : Logged.load files path with
  | error cause =>
    rw [hload] at h
    cases h
    rfl
  | ok source =>
    rw [hload] at h
    cases h

theorem breaks_iff_of_value {opts : Options} {o : Operation} {value : Except ReadError Json}
    (hvalue : o.value? = value.toOption) (hpath : ∀ files path, o = .file files path →
      ¬ path.IsNoPath) :
    o.Breaks opts ↔ ∃ crash, opts.result value = .error (.crash crash) := by
  rw [Options.result_crash_iff, ← hvalue]
  constructor
  · rintro (noPath | ⟨value, -, format, answered⟩)
    · exact absurd noPath (hpath _ _ rfl)
    · exact ⟨_, _, value, format, answered⟩
  · rintro ⟨j, e, hj, hformat, hanswered⟩
    exact .tooWide hj (wide_of_format_eq_error hformat hanswered) hformat hanswered

/-- **An operation has no answer** if and only if there is a cause. -/
theorem perform_crash_iff (s : Session) (o : Operation) :
    (∃ crash, (s.perform o).2 = some (.error crash)) ↔ o.Breaks s.options := by
  cases o with
  | text t =>
    obtain ⟨history, hvalue⟩ := s.formatText_value t
    have hpath : ∀ files path, Operation.text t = .file files path → ¬ path.IsNoPath := by
      rintro files path ⟨⟩
    have hread : (Operation.text t).value? = (readText t).toOption := rfl
    rw [breaks_iff_of_value hread hpath, perform, hvalue,
      ← answer_eq_error_iff (s := { s with lastInput := some t, history })]
    simp
  | file files path =>
    cases hread : files.readJson path with
    | error crash =>
      refine iff_of_true ⟨crash, ?_⟩ (.noPath (FileStore.readJson_eq_error_iff.mp ⟨crash, hread⟩))
      rw [perform, formatFile_of_readJson_eq_error hread]
    | ok value =>
      have hpath : ∀ files' path', Operation.file files path = .file files' path' →
          ¬ path'.IsNoPath := by
        rintro files' path' ⟨⟩ hno
        obtain ⟨crash, hcrash⟩ : ∃ crash, files.readJson path = .error crash :=
          FileStore.readJson_eq_error_iff.mpr hno
        cases hread.symm.trans hcrash
      rw [breaks_iff_of_value (FileStore.value?_of_readJson hread) hpath, perform,
        formatFile_of_readJson hread,
        ← answer_eq_error_iff (s := { s with lastInput := some path })]
      simp
  | reset =>
    refine iff_of_false (by simp [perform]) ?_
    rintro (_ | ⟨value, -, -, -⟩)
    cases value

/-- **A file has an answer**, which is kept next to its path, if and only if there is no cause for
having none.  Otherwise only the path is kept.  The history stays as it is. -/
theorem formatFile_answers_iff (s : Session) (files : FileStore) (path : Text) :
    ((∃ value out, files.readJson path = .ok value ∧ s.options.Answers value out ∧
        (s.formatFile files path).value =
          ({ s with lastInput := some path, lastOutput := some out }, .ok out)) ↔
      ¬ (Operation.file files path).Breaks s.options) ∧
    ((∃ crash, (s.formatFile files path).value =
        ({ s with lastInput := some path }, .error crash)) ↔
      (Operation.file files path).Breaks s.options) := by
  have hbreaks := s.perform_crash_iff (.file files path)
  simp only [perform, Option.some.injEq] at hbreaks
  rw [← hbreaks]
  cases hread : files.readJson path with
  | error crash =>
    rw [formatFile_of_readJson_eq_error hread]
    simp
  | ok value =>
    rw [formatFile_of_readJson hread]
    cases hanswer : (answer { s with lastInput := some path } (s.options.result value)).2 with
    | ok out =>
      rw [answer_of_ok hanswer]
      simpa using answers_of_answer hanswer
    | error crash =>
      rw [answer_of_error hanswer]
      simp

/-- A path with a null character has no answer, and leaves the last output behind the last input. -/
theorem not_formatFile_answers_of_null_path :
    ¬ ∀ (s : Session) (files : FileStore) (path : Text),
      ∃ out, (s.formatFile files path).value.2 = .ok out ∧
        (s.formatFile files path).value.1 =
          { s with lastInput := some path, lastOutput := some out } := by
  intro h
  obtain ⟨out, hout, -⟩ := h { options := {} } {} "a\x00b"
  have hcrash : (formatFile { options := {} } {} "a\x00b").value.2 = .error .embeddedNull := by
    decide +kernel
  cases hcrash.symm.trans hout

end Session

end JsonLayout
