import JsonLayout.Proofs.Files.Store
import JsonLayout.Proofs.Session
import Mathlib.Data.List.DropRight

/-!
# Sessions over their runs

What a session keeps is a function of what it was asked for since it was last reset, and of the
results it gave: the texts that were formatted without an error, the last input, and the last
result.  Commands do not touch it.

An operation that crashes has no result.  It is kept as the last input, next to the result of an
operation before it.

## Main definitions

* `Operation`, `Request`: what a session does, and what it is asked for, which may be a line.
* `Operation.succeeds`, `Operation.Crashes`: operations that are read and formatted without an
  error, and those that may have no result.
* `Entry`, `Session.entries`: the operations of a run with their results.
* `Session.Performs`: an operation by what comes of it.
* `Session.Records`: a session that keeps what it should after some operations.

## Main results

* `Session.performs`: all that an operation can do.
* `Session.serve_eq`: what a request does is what its operation does.
* `Session.Records.serve`, `Session.Records.serveAll`: the invariant, for one request and for all.
* `Session.records_of_run`: what a session keeps after a run.
-/

namespace JsonLayout

/-! ### Operations -/

/-- What a session does.  A file is read from what there is at that time. -/
inductive Operation where
  | text (t : Text)
  | file (files : FileStore) (path : Text)
  | reset
deriving DecidableEq

/-- Whether there is a value, and it has a layout. -/
def Options.formats (opts : Options) (value? : Option Json) : Bool :=
  value?.any fun j => (opts.format j.toDatum).isOk

namespace Operation

/-- The text or the path that is to be formatted. -/
def argument? : Operation → Option Text
  | .text t => some t
  | .file _ path => some path
  | .reset => none

/-- The text that is to be formatted. -/
def text? : Operation → Option Text
  | .text t => some t
  | _ => none

/-- The value that is to be formatted, if it can be read. -/
def value? : Operation → Option Json
  | .text t => (readText t).toOption
  | .file files path => do
    let bytes ← (pathBytes path).toOption
    let content ← (files.read bytes).toOption
    (readBytes content).toOption
  | .reset => none

/-- Whether reading and formatting go well. -/
def succeeds (opts : Options) (o : Operation) : Bool := opts.formats o.value?

/-- Why an operation may have no result: a value whose innermost lines begin with more spaces than
memory holds, or a path that is not one. -/
inductive Crashes (opts : Options) : Operation → Prop where
  | indent {o : Operation} {j : Json} (value : o.value? = some j)
      (wide : Options.memoryLimit ≤ ((j.nesting * opts.indentWidth : Nat) : Int)) : Crashes opts o
  | path {files : FileStore} {path : Text} {c : CodePoint} (mem : c ∈ path)
      (bad : c.val = 0 ∨ c.isSurrogate) : Crashes opts (.file files path)

end Operation

/-! ### What is made of a source -/

namespace Logged

theorem value_read (t : Text) : (read t).value = readText t := by
  rw [read]
  cases readText t <;> rfl

theorem value_readBytes (bytes : Bytes) : (readBytes bytes).value = JsonLayout.readBytes bytes := by
  rw [readBytes, JsonLayout.readBytes]
  cases Utf8.decode (Utf8.dropByteOrderMark bytes) with
  | error reason => rfl
  | ok t => exact value_read t

/-- The value of a file, if there is one. -/
theorem load_cases (files : FileStore) (path : Text) :
    (∃ crash, pathBytes path = .error crash ∧ load files path = .error crash) ∨
      ∃ source, load files path = .ok source ∧
        source.value.toOption = (Operation.file files path).value? := by
  rw [load, Operation.value?]
  cases hbytes : pathBytes path with
  | error crash => exact .inl ⟨crash, rfl, rfl⟩
  | ok bytes =>
    right
    simp only [bind, Except.bind, Except.toOption, Option.bind_some]
    cases files.read bytes with
    | error e => exact ⟨_, rfl, rfl⟩
    | ok content =>
      refine ⟨_, rfl, ?_⟩
      rw [value_readBytes]
      rfl

/-- **What comes of formatting**: a layout, which is not taken for a message; a message; or a crash
for a value that is nested too deeply for its indentation. -/
theorem format_cases (opts : Options) (source : Logged (Except ReadError Json)) :
    (opts.formats source.value.toOption = true ∧
      ∃ t, (source.format opts).value = .ok t ∧ t.startsWith errorLead = false) ∨
    opts.formats source.value.toOption = false ∧
      ((∃ m, (source.format opts).value = .error (.message m)) ∨
        ∃ j crash, source.value.toOption = some j ∧
          Options.memoryLimit ≤ ((j.nesting * opts.indentWidth : Nat) : Int) ∧
          (source.format opts).value = .error (.crash crash)) := by
  rw [format]
  cases hvalue : source.value with
  | error e => exact .inr ⟨rfl, .inl ⟨_, rfl⟩⟩
  | ok j =>
    have hformats : opts.formats (some j) = (opts.format j.toDatum).isOk := rfl
    simp only [Except.toOption, hformats]
    rcases opts.format_toDatum j with ⟨-, h⟩ | ⟨e, href, h⟩
    · refine .inl ⟨by rw [h]; rfl, ?_⟩
      simp only [h]
      exact ⟨_, rfl, startsWith_errorLead_of_format h⟩
    · refine .inr ⟨by rw [h]; rfl, ?_⟩
      simp only [h]
      cases href with
      | notFinite | integerTooLong => exact .inl ⟨_, rfl⟩
      | indentOverflow hfits | outOfMemory hfits =>
        exact .inr ⟨j, _, rfl, Options.not_fits_zero_iff.mp hfits, rfl⟩

end Logged

/-! ### What an operation does -/

namespace Session

/-- The session after an operation, and what the operation returns. -/
def perform (s : Session) : Operation → Session × Option (Except Crash Text)
  | .text t => ((s.formatText t).value.1, some (s.formatText t).value.2)
  | .file files path =>
    ((s.formatFile files path).value.1, some (s.formatFile files path).value.2)
  | .reset => (s.reset, none)

/-- **All that an operation can do**, by what comes of it. -/
inductive Performs (s : Session) (o : Operation) :
    Session × Option (Except Crash Text) → Prop where
  | reset (isReset : o = .reset) : Performs s o (s.reset, none)
  | layout {argument out : Text} (argument_eq : o.argument? = some argument)
      (succeeds : o.succeeds s.options = true) (lead : out.startsWith errorLead = false) :
      Performs s o
        ({ s with
            history := s.history ++ o.text?.toList
            lastInput := some argument
            lastOutput := some out }, some (.ok out))
  | message {argument out : Text} (argument_eq : o.argument? = some argument)
      (succeeds : o.succeeds s.options = false) (lead : out.startsWith errorLead = true) :
      Performs s o
        ({ s with lastInput := some argument, lastOutput := some out }, some (.ok out))
  | crash {argument : Text} {crash : Crash} (argument_eq : o.argument? = some argument)
      (succeeds : o.succeeds s.options = false) (crashes : o.Crashes s.options) :
      Performs s o ({ s with lastInput := some argument }, some (.error crash))

variable {s : Session} {o : Operation}

/-- What a session does with a source: the history grows with a layout and stays with an error. -/
theorem performs_of_source {argument : Text} (hargument : o.argument? = some argument)
    {source : Logged (Except ReadError Json)} (hvalue : source.value.toOption = o.value?)
    {history : List Text}
    (hok : ∀ t, (source.format s.options).value = .ok t → history = s.history ++ o.text?.toList)
    (herror : ∀ e, (source.format s.options).value = .error e → history = s.history)
    {answered : Session × Except Crash Text}
    (hanswered : answer { s with lastInput := some argument, history }
      (source.format s.options).value = answered) :
    s.Performs o (answered.1, some answered.2) := by
  subst hanswered
  have hsucceeds : o.succeeds s.options = s.options.formats source.value.toOption := by
    rw [hvalue]
    rfl
  rcases Logged.format_cases s.options source with
    ⟨hformats, out, h, hlead⟩ | ⟨hformats, ⟨m, h⟩ | ⟨j, crash, hj, hwide, h⟩⟩
  · rw [hok _ h, h]
    exact .layout hargument (hsucceeds.trans hformats) hlead
  · rw [herror _ h, h]
    exact .message hargument (hsucceeds.trans hformats) (startsWith_errorLead_append m)
  · rw [herror _ h, h]
    exact .crash hargument (hsucceeds.trans hformats) (.indent (hvalue.symm.trans hj) hwide)

theorem performs_text (s : Session) (t : Text) : s.Performs (.text t) (s.perform (.text t)) := by
  refine performs_of_source rfl (congrArg Except.toOption (Logged.value_read t)) ?_ ?_ rfl
  · intro out h
    rw [h]
    rfl
  · intro e h
    rw [h]

theorem performs_file (s : Session) (files : FileStore) (path : Text) :
    s.Performs (.file files path) (s.perform (.file files path)) := by
  rw [perform, formatFile]
  rcases Logged.load_cases files path with ⟨crash, hpath, hload⟩ | ⟨source, hload, hvalue⟩
  · rw [hload]
    refine .crash rfl ?_ ?_
    · rw [Operation.succeeds, Operation.value?, hpath]
      rfl
    · by_contra hcrash
      have hgood : ∀ c ∈ path, c.val ≠ 0 ∧ c.isSurrogate = false := by
        intro c hc
        rw [← Bool.not_eq_true, ← not_or]
        exact fun hbad => hcrash (.path hc hbad)
      rw [pathBytes_eq_ok hgood] at hpath
      cases hpath
  · simp only [hload]
    exact performs_of_source rfl hvalue (fun _ _ => (List.append_nil _).symm) (fun _ _ => rfl) rfl

theorem performs (s : Session) (o : Operation) : s.Performs o (s.perform o) := by
  cases o with
  | text t => exact s.performs_text t
  | file files path => exact s.performs_file files path
  | reset => exact .reset rfl

end Session

/-! ### Requests -/

/-- What a session is asked for: an operation, or a line of input that it has to make sense of. -/
inductive Request where
  | operation (o : Operation)
  | line (files : FileStore) (line : Text)
deriving DecidableEq

/-- The operation that is asked for.  An empty line and the commands to quit and to list the history
ask for none. -/
def Request.operation? : Request → Option Operation
  | .operation o => some o
  | .line files t =>
    let stripped := t.strip
    if stripped.isEmpty then none
    else if stripped = (":q" : Text) ∨ stripped = (":quit" : Text) then none
    else if stripped = (":history" : Text) then none
    else if stripped = (":reset" : Text) then some .reset
    else
      match Text.after? Session.formatFileLead stripped with
      | some path => some (.file files path.strip)
      | none => some (.text stripped)

/-- An operation in a run, with what it returned. -/
structure Entry where
  operation : Operation
  result : Option (Except Crash Text)
deriving DecidableEq

namespace Entry

/-- What the operation is given. -/
def argument? (e : Entry) : Option Text := e.operation.argument?

/-- The result, unless there is none. -/
def returned? (e : Entry) : Option Text := e.result.bind Except.toOption

/-- The text that is kept in the history. -/
def kept? (opts : Options) (e : Entry) : Option Text :=
  if e.operation.succeeds opts then e.operation.text? else none

/-- The entries since the session was last reset. -/
def sinceReset (past : List Entry) : List Entry := past.rtakeWhile fun e => e.operation ≠ .reset

theorem sinceReset_concat_of_reset (past : List Entry) {e : Entry} (h : e.operation = .reset) :
    sinceReset (past ++ [e]) = [] :=
  List.rtakeWhile_concat_neg _ _ _ (by simp [h])

theorem sinceReset_concat (past : List Entry) {e : Entry} (h : e.operation ≠ .reset) :
    sinceReset (past ++ [e]) = sinceReset past ++ [e] :=
  List.rtakeWhile_concat_pos _ _ _ (by simp [h])

/-- What the entries since the last reset hold, with one more entry. -/
theorem filterMap_sinceReset_concat (past : List Entry) {e : Entry} (h : e.operation ≠ .reset)
    (f : Entry → Option Text) :
    (sinceReset (past ++ [e])).filterMap f = (sinceReset past).filterMap f ++ (f e).toList := by
  rw [sinceReset_concat past h, List.filterMap_append, List.filterMap_cons]
  cases f e <;> rfl

/-- **A result tells** how reading and formatting went: it begins as messages do if and only if one
of them failed, and then the text is not kept.  Only a crash leaves an operation without one. -/
structure Tells (opts : Options) (e : Entry) : Prop where
  lead : ∀ out, e.returned? = some out →
    (out.startsWith errorLead = true ↔ e.operation.succeeds opts = false)
  kept : ∀ out, e.returned? = some out →
    e.kept? opts = if out.startsWith errorLead then none else e.operation.text?
  crash : e.operation ≠ .reset → e.returned? = none → e.operation.Crashes opts

end Entry

namespace Session

/-- The session after a request. -/
def serve (s : Session) : Request → Session
  | .operation o => (s.perform o).1
  | .line files line => (s.processLine files line).session

/-- The operation that a request asks for, with what it returns. -/
def entry? (s : Session) (r : Request) : Option Entry :=
  r.operation?.map fun o => ⟨o, (s.perform o).2⟩

/-- The session after requests. -/
def serveAll (s : Session) : List Request → Session
  | [] => s
  | r :: rs => (s.serve r).serveAll rs

/-- The operations of a run, each with what it returns. -/
def entries (s : Session) : List Request → List Entry
  | [] => []
  | r :: rs => (s.entry? r).toList ++ (s.serve r).entries rs

/-- **A request** does what its operation does. -/
theorem serve_eq (s : Session) (r : Request) :
    s.serve r = r.operation?.elim s fun o => (s.perform o).1 := by
  cases r with
  | operation o => rfl
  | line files line =>
    simp only [serve, processLine, Request.operation?]
    split_ifs with hempty hquit hhistory hreset
    · rfl
    · rfl
    · rfl
    · rfl
    · cases Text.after? formatFileLead line.strip with
      | some path =>
        dsimp only [Option.elim_some, perform]
        rcases s.formatFile files path.strip with ⟨⟨after, crash | out⟩, log⟩ <;> rfl
      | none =>
        dsimp only [Option.elim_some, perform]
        rcases s.formatText line.strip with ⟨⟨after, crash | out⟩, log⟩ <;> rfl

/-! ### What is kept -/

/-- **What a session keeps** after some operations. -/
structure Records (opts : Options) (s : Session) (past : List Entry) : Prop where
  /-- The options stay. -/
  options : s.options = opts
  /-- The history is the texts that were formatted without an error. -/
  history : s.history = (Entry.sinceReset past).filterMap (Entry.kept? opts)
  /-- The last input is what the last operation was given. -/
  lastInput : s.lastInput = (Entry.sinceReset past).getLast?.bind Entry.argument?
  /-- The last output is the last result. -/
  lastOutput : s.lastOutput = ((Entry.sinceReset past).filterMap Entry.returned?).getLast?
  /-- Each result tells how its operation went. -/
  tells : ∀ e ∈ past, e.Tells opts

theorem tells_of_perform (s : Session) (o : Operation) :
    Entry.Tells s.options ⟨o, (s.perform o).2⟩ := by
  have hp := s.performs o
  generalize s.perform o = p at hp
  cases hp with
  | reset isReset => exact ⟨nofun, nofun, fun hreset => absurd isReset hreset⟩
  | layout _ succeeds lead | message _ succeeds lead =>
    refine ⟨?_, ?_, fun _ => nofun⟩
    · rintro _ ⟨⟩
      simp [succeeds, lead]
    · rintro _ ⟨⟩
      simp [Entry.kept?, succeeds, lead]
  | crash _ _ crashes => exact ⟨nofun, nofun, fun _ _ => crashes⟩

namespace Records

variable {opts : Options} {s : Session} {past : List Entry}

/-- An operation that is not a reset is added to what is kept. -/
theorem concat (h : Records opts s past) {e : Entry} (hreset : e.operation ≠ .reset)
    {after : Session} (hoptions : after.options = s.options)
    (hhistory : after.history = s.history ++ (e.kept? opts).toList)
    (hinput : after.lastInput = e.argument?)
    (houtput : after.lastOutput = e.returned?.or s.lastOutput) (htells : e.Tells opts) :
    Records opts after (past ++ [e]) := by
  refine ⟨hoptions.trans h.options, ?_, ?_, ?_, ?_⟩
  · rw [Entry.filterMap_sinceReset_concat past hreset, hhistory, h.history]
  · rw [Entry.sinceReset_concat past hreset, List.getLast?_concat, hinput]
    rfl
  · rw [houtput, h.lastOutput, Entry.filterMap_sinceReset_concat past hreset, List.getLast?_append]
    cases e.returned? <;> rfl
  · exact List.forall_mem_append.mpr ⟨h.tells, List.forall_mem_singleton.mpr htells⟩

/-- A reset leaves nothing to be kept. -/
theorem concat_reset (h : Records opts s past) {e : Entry} (hreset : e.operation = .reset)
    (htells : e.Tells opts) : Records opts s.reset (past ++ [e]) := by
  have hnil := Entry.sinceReset_concat_of_reset past hreset
  refine ⟨h.options, ?_, ?_, ?_, ?_⟩
  · rw [hnil]
    rfl
  · rw [hnil]
    rfl
  · rw [hnil]
    rfl
  · exact List.forall_mem_append.mpr ⟨h.tells, List.forall_mem_singleton.mpr htells⟩

/-- **An operation** and its result are added to what is kept, but a reset leaves nothing to be
kept. -/
theorem perform (h : Records opts s past) (o : Operation) :
    Records opts (s.perform o).1 (past ++ [⟨o, (s.perform o).2⟩]) := by
  have htells := s.tells_of_perform o
  rw [h.options] at htells
  have hp := s.performs o
  generalize s.perform o = p at hp htells ⊢
  have hne {argument : Text} (hargument : o.argument? = some argument) : o ≠ .reset := by
    rintro rfl
    cases hargument
  have hkept {succeeds : Bool} (hs : o.succeeds s.options = succeeds)
      (result : Option (Except Crash Text)) :
      Entry.kept? opts ⟨o, result⟩ = if succeeds then o.text? else none := by
    rw [← h.options, ← hs]
    rfl
  cases hp with
  | reset hreset => exact h.concat_reset hreset htells
  | layout hargument hsucceeds =>
    refine h.concat (hne hargument) rfl ?_ ?_ rfl htells
    · rw [hkept hsucceeds]
      rfl
    · exact hargument.symm
  | message hargument hsucceeds | crash hargument hsucceeds =>
    refine h.concat (hne hargument) rfl ?_ ?_ rfl htells
    · rw [hkept hsucceeds]
      exact (List.append_nil _).symm
    · exact hargument.symm

/-- **A request** adds its operation, if it asks for one. -/
theorem serve (h : Records opts s past) (r : Request) :
    Records opts (s.serve r) (past ++ (s.entry? r).toList) := by
  rw [serve_eq, entry?]
  cases r.operation? with
  | none => exact (List.append_nil past).symm ▸ h
  | some o => exact h.perform o

/-- **Requests**, one after the other. -/
theorem serveAll (h : Records opts s past) (rs : List Request) :
    Records opts (s.serveAll rs) (past ++ s.entries rs) := by
  induction rs generalizing s past with
  | nil => exact (List.append_nil past).symm ▸ h
  | cons r rs ih =>
    rw [Session.serveAll, entries, ← List.append_assoc]
    exact ih (h.serve r)

end Records

/-- **A new session** after any requests keeps what it should: the texts since the last reset that
were read and formatted without an error, what the last operation was given, and the last result. -/
theorem records_of_run (opts : Options) (rs : List Request) :
    Records opts (serveAll { options := opts } rs) (entries { options := opts } rs) := by
  have hnew : Records opts { options := opts } [] := ⟨rfl, rfl, rfl, rfl, List.forall_mem_nil _⟩
  exact hnew.serveAll rs

/-- The last input and output do not belong together after an operation that has no result. -/
theorem not_records_result_of_wide_indent :
    ¬ ∀ (opts : Options) (rs : List Request),
      let s := serveAll { options := opts } rs
      (s.lastInput = none ∧ s.lastOutput = none) ∨
        ∃ e out, (Entry.sinceReset (entries { options := opts } rs)).getLast? = some e ∧
          e.returned? = some out ∧ s.lastInput = e.argument? ∧ s.lastOutput = some out := by
  intro h
  have hinput : (serveAll { options := ⟨2 ^ 63, false, false⟩ }
      [.operation (.text "[]")]).lastInput = some "[]" := by decide +kernel
  have houtput : (serveAll { options := ⟨2 ^ 63, false, false⟩ }
      [.operation (.text "[]")]).lastOutput = none := by decide +kernel
  rcases h ⟨2 ^ 63, false, false⟩ [.operation (.text "[]")] with
    ⟨hnone, -⟩ | ⟨e, out, -, -, -, hout⟩
  · rw [hinput] at hnone
    cases hnone
  · rw [houtput] at hout
    cases hout

end Session

end JsonLayout
