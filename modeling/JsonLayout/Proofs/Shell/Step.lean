import JsonLayout.Proofs.Files.Store
import JsonLayout.Proofs.Shell.Role

/-!
# What a step of the shell does

Everything that a step does, said once: the shell after it, whether it goes on, the text that it
submits and the output that it writes.  A step crashes only for what the session makes of the input,
for output that cannot be written to a file, or for a path that names nothing.

## Main definitions

* `Shell.destination`, `Effect.output`: where output goes, and a text that is written there.
* `Shell.Smooth`: an input that the shell does not crash on.
* `Shell.next`: the shell after an input, if it goes on.
* `Shell.Answers`: what a step does.

## Main results

* `Shell.Smooth.answers`, `Shell.smooth_of_not_crashed`: a step that does not crash does just that.
-/

namespace JsonLayout

/-! ### Output -/

namespace Effect

/-- A text as output to the file at a location or, without one, to standard output. -/
def output : Option Location → Text → Effect
  | none, t => .out t
  | some location, t => .file location t

/-- Whether an effect is output, as messages and the log are not. -/
def isOutput : Effect → Bool
  | .out _ | .file _ _ => true
  | .err _ | .log _ => false

theorem filter_isOutput_output (destination : Option Location) (ts : List Text) :
    (ts.map (output destination)).filter isOutput = ts.map (output destination) := by
  rw [List.filter_eq_self, List.forall_mem_map]
  intro t _
  cases destination <;> rfl

theorem filter_isOutput_log (log : List LogEntry) : (log.map Effect.log).filter isOutput = [] := by
  rw [List.filter_eq_nil_iff, List.forall_mem_map]
  exact fun _ _ => Bool.false_ne_true

end Effect

/-- The line break that an input leaves on standard output, wherever output goes. -/
def Input.lineBreak : Input → List Text
  | .line _ => []
  | .interrupt | .endOfInput => [[CodePoint.lineFeed]]

theorem Input.conclude_of_crashed {step : Step} {crash : Crash} (h : step.status = .crashed crash)
    (input : Input) : input.conclude step = step := by
  cases input with
  | line t => rfl
  | interrupt => rw [conclude, Step.andOut, h]
  | endOfInput => rw [conclude, Step.andOut, h, Step.finish, h]

theorem Input.conclude_of_not_crashed {step : Step}
    (h : ∀ crash, step.status ≠ .crashed crash) (input : Input) :
    input.conclude step =
      { step with
        effects := step.effects ++ input.lineBreak.map .out
        status := if input = .endOfInput then .finished else step.status } := by
  cases input with
  | line t => simp [conclude, lineBreak]
  | interrupt =>
    rw [conclude, Step.andOut]
    split
    · next crash hcrash => exact absurd hcrash (h crash)
    · rfl
  | endOfInput =>
    have hout : step.andOut "\n" = { step with effects := step.effects ++ [.out "\n"] } := by
      rw [Step.andOut]
      split
      · next crash hcrash => exact absurd hcrash (h crash)
      · rfl
    rw [conclude, hout, Step.finish]
    dsimp only
    split
    · next crash hcrash => exact absurd hcrash (h crash)
    · rfl

namespace Shell

variable {s : Shell} {ts : List Text} {input : Input} {reply : Session.LineResult}

@[simp] theorem close_session (s : Shell) : s.close.session = s.session := by
  rw [close]; cases s.redirect <;> rfl

@[simp] theorem close_pending (s : Shell) : s.close.pending = s.pending := by
  rw [close]; cases s.redirect <;> rfl

@[simp] theorem close_redirect (s : Shell) : s.close.redirect = none := by
  rw [close]
  cases h : s.redirect with
  | none => exact h
  | some r => rfl

/-- Where output goes: the file at a location or, without one, standard output. -/
def destination (s : Shell) : Option Location := s.redirect.map Redirect.location

/-- The shell after texts were written. -/
def wrote (s : Shell) (ts : List Text) : Shell :=
  { s with
    redirect := s.redirect.map fun r => { r with written := r.written ++ Text.bytes ts.flatten } }

theorem wrote_nil (s : Shell) : s.wrote [] = s := by
  rcases s with ⟨session, files, pending, redirect⟩
  cases redirect <;> simp [wrote, Text.bytes]

/-- Texts that can be written to where output goes: a file takes no surrogates. -/
def Accepts (s : Shell) (ts : List Text) : Prop :=
  s.redirect ≠ none → ∀ c ∈ ts.flatten, c.isSurrogate = false

theorem accepts_nil (s : Shell) : s.Accepts [] := fun _ => List.forall_mem_nil _

/-- What a file takes goes there, one text after the other. -/
theorem write_of_accepts (h : s.Accepts ts) :
    s.write ts = { shell := s.wrote ts, effects := ts.map (Effect.output s.destination) } := by
  induction ts generalizing s with
  | nil =>
    rw [wrote_nil]
    rfl
  | cons t ts ih =>
    cases hr : s.redirect with
    | none =>
      have hts : s.Accepts ts := fun hne => absurd hr hne
      rw [write, hr]
      dsimp only
      rw [ih hts]
      simp [wrote, destination, Effect.output, hr]
    | some r =>
      have hclean := h (by simp [hr])
      rw [List.flatten_cons, List.forall_mem_append] at hclean
      have hbytes : contentBytes t = .ok t.bytes := contentBytes_eq_ok_iff.mpr ⟨hclean.1, rfl⟩
      rw [write, hr]
      dsimp only
      rw [hbytes]
      dsimp only
      rw [ih fun _ => hclean.2]
      simp [wrote, destination, Effect.output, hr, Text.bytes_append]

theorem write_of_not_accepts (h : ¬ s.Accepts ts) :
    ∃ crash, (s.write ts).status = .crashed crash := by
  induction ts generalizing s with
  | nil => exact absurd s.accepts_nil h
  | cons t ts ih =>
    cases hr : s.redirect with
    | none => exact absurd (fun hne => absurd hr hne) h
    | some r =>
      rw [write, hr]
      dsimp only
      cases ht : contentBytes t with
      | error crash => exact ⟨crash, rfl⟩
      | ok bytes =>
        refine ih fun hts => h fun _ => ?_
        rw [List.flatten_cons, List.forall_mem_append]
        exact ⟨(contentBytes_eq_ok_iff.mp ht).1, hts (by simp)⟩

/-! ### Replies -/

/-- The shell after a reply was delivered. -/
def delivered (s : Shell) (reply : Session.LineResult) : Shell :=
  wrote { s with session := reply.session } reply.writes

theorem deliver_of_accepts {goesOn : Bool} (haccepts : s.Accepts reply.writes)
    (hgoesOn : reply.goesOn = .ok goesOn) :
    s.deliver reply =
      { shell := s.delivered reply
        effects := reply.log.map .log ++ reply.writes.map (Effect.output s.destination)
        status := if goesOn then .running else .finished } := by
  have hwrite : write { s with session := reply.session } reply.writes = _ :=
    write_of_accepts haccepts
  rw [deliver, hwrite, hgoesOn]
  cases goesOn <;> rfl

/-- A reply that crashes after it wrote nothing. -/
theorem deliver_of_error {crash : Crash} (hwrites : reply.writes = [])
    (hgoesOn : reply.goesOn = .error crash) :
    s.deliver reply =
      { shell := { s with session := reply.session }
        effects := reply.log.map .log
        status := .crashed crash } := by
  rw [deliver, hwrites, hgoesOn, write]
  exact congrArg (Step.mk _ · _ _) (List.append_nil _)

/-- A reply that is not delivered is one that crashes or that cannot be written. -/
theorem accepts_of_not_crashed (h : ∀ crash, (s.deliver reply).status ≠ .crashed crash) :
    s.Accepts reply.writes ∧ ∃ goesOn, reply.goesOn = .ok goesOn := by
  by_cases haccepts : s.Accepts reply.writes
  · refine ⟨haccepts, ?_⟩
    cases hgoesOn : reply.goesOn with
    | ok goesOn => exact ⟨goesOn, rfl⟩
    | error crash =>
      have hwrite : write { s with session := reply.session } reply.writes = _ :=
        write_of_accepts haccepts
      rw [deliver, hwrite, hgoesOn] at h
      exact absurd rfl (h crash)
  · obtain ⟨crash, hcrash⟩ := write_of_not_accepts (s := { s with session := reply.session })
      haccepts
    have hstatus : (Step.withLog reply.log (write { s with session := reply.session }
      reply.writes)).status = .crashed crash := hcrash
    rw [deliver, hstatus] at h
    exact absurd hstatus (h crash)

/-! ### Redirection -/

/-- Where the file is that a path can be opened at for output, once no other one is open. -/
def opened? (s : Shell) (path : Text) : Option Location :=
  match pathBytes path with
  | .error _ => none
  | .ok bytes => (s.close.files.target bytes).toOption

/-- The shell after a part that is about where output goes. -/
def routed (s : Shell) : Role → Shell
  | .redirect (some path) =>
    match s.opened? path with
    | some location =>
      { s.close with files := s.close.files.put location [], redirect := some { location } }
    | none => s.close
  | .redirect none => s.close
  | _ => s

@[simp] theorem routed_session (s : Shell) (role : Role) :
    (s.routed role).session = s.session := by
  unfold routed
  split
  · split
    · exact s.close_session
    · exact s.close_session
  · exact s.close_session
  · rfl

@[simp] theorem routed_pending (s : Shell) (role : Role) :
    (s.routed role).pending = s.pending := by
  unfold routed
  split
  · split
    · exact s.close_pending
    · exact s.close_pending
  · exact s.close_pending
  · rfl

theorem routed_of_not_isRedirect {role : Role} (h : role.isRedirect = false) :
    s.routed role = s := by
  cases role <;> first | rfl | cases h

/-- A part that is about where output goes is a line while nothing is pending. -/
theorem exists_line_of_redirect {path : Option Text} (h : s.role input = .redirect path) :
    s.pending = [] ∧ ∃ t, input = .line t ∧ Role.ofFreshLine t = .redirect path := by
  obtain ⟨t, rfl⟩ := exists_line_of_role h (by simp) (by simp) (by simp)
  rw [role, Role.ofInput] at h
  split_ifs at h with hpending
  exact ⟨hpending, t, rfl, h⟩

theorem handle_of_redirect {path : Option Text} (h : s.role input = .redirect path) :
    s.handle input = path.elim { shell := s.close } s.redirectTo := by
  obtain ⟨hpending, t, rfl, hfresh⟩ := exists_line_of_redirect h
  have hhandle : s.handle (.line t) = s.freshLine t := if_pos (by rw [hpending]; rfl)
  rw [hhandle, freshLine_eq hpending, hfresh]

/-- A redirection is a part that the session has nothing to say about. -/
theorem reply_of_redirect {path : Option Text} (h : s.role input = .redirect path) :
    s.reply input = { session := s.session } := by
  rw [reply, h]
  rfl

/-- A path that names something is opened, or else there is a message about it. -/
theorem redirectTo_eq {path : Text} {bytes : Bytes} (h : pathBytes path = .ok bytes) :
    ∃ effects, s.redirectTo path = { shell := s.routed (.redirect (some path)), effects } ∧
      effects.filter Effect.isOutput = [] := by
  rw [redirectTo, routed, opened?, h]
  dsimp only [FileStore.create, bind, Except.bind]
  cases s.close.files.target bytes with
  | error e => exact ⟨[.err (openError path e)], rfl, rfl⟩
  | ok location => exact ⟨[], rfl, rfl⟩

/-! ### Steps -/

/-- Whether an input ends the shell. -/
def ends (s : Shell) (input : Input) : Bool :=
  match input, (s.reply input).goesOn with
  | .endOfInput, _ => true
  | _, .ok goesOn => !goesOn
  | _, .error _ => false

/-- The shell after an input, if it goes on. -/
def next (s : Shell) (input : Input) : Shell :=
  delivered { s.routed (s.role input) with pending := (s.role input).pending s.pending }
    (s.reply input)

/-- An input that the shell does not crash on. -/
structure Smooth (s : Shell) (input : Input) : Prop where
  goesOn : ∃ goesOn, (s.reply input).goesOn = .ok goesOn
  accepts : s.Accepts (s.reply input).writes
  path : ∀ path, s.role input = .redirect (some path) → ∃ bytes, pathBytes path = .ok bytes

/-- What a step does. -/
structure Answers (s : Shell) (input : Input) : Prop where
  shell : (s.step input).shell = if s.ends input then (s.next input).close else s.next input
  status : (s.step input).status = if s.ends input then .finished else .running
  submitted : (s.step input).submitted = (s.role input).submitted?
  output : (s.step input).effects.filter Effect.isOutput
    = (s.reply input).writes.map (Effect.output s.destination) ++ input.lineBreak.map .out

theorem Answers.session (h : s.Answers input) :
    (s.step input).shell.session = (s.reply input).session := by
  have hclose : (s.next input).close.session = (s.next input).session := close_session _
  rw [h.shell]
  split
  · exact hclose
  · rfl

theorem step_status (s : Shell) (input : Input) :
    (s.step input).status = (s.handle input).status := by
  rw [step]
  split <;> rfl

theorem step_submitted {t : Text} (h : (s.role (.line t)).isRedirect = false) :
    (s.step (.line t)).submitted = (s.role (.line t)).submitted? := by
  obtain ⟨log, hhandle⟩ := handle_eq h
  have hstep : (s.step (.line t)).submitted = (s.handle (.line t)).submitted := by
    rw [step]
    split <;> rfl
  rw [hstep, hhandle]
  rfl

theorem ends_of_goesOn {goesOn : Bool} (h : (s.reply input).goesOn = .ok goesOn) :
    s.ends input = (decide (input = .endOfInput) || !goesOn) := by
  unfold ends
  rw [h]
  cases input <;> simp

theorem ends_of_redirect {path : Option Text} (h : s.role input = .redirect path) :
    s.ends input = false := by
  have hreply := reply_of_redirect h
  obtain ⟨-, t, rfl, -⟩ := exists_line_of_redirect h
  have hgoesOn : (s.reply (.line t)).goesOn = .ok true := by rw [hreply]
  rw [ends_of_goesOn hgoesOn]
  rfl

theorem isRedirect_of_ends (h : s.ends input = true) : (s.role input).isRedirect = false := by
  cases hredirect : (s.role input).isRedirect with
  | false => rfl
  | true =>
    obtain ⟨path, hpath⟩ := Role.exists_of_isRedirect hredirect
    rw [ends_of_redirect hpath] at h
    cases h

/-- A redirection does nothing but that. -/
theorem next_of_redirect {path : Option Text} (h : s.role input = .redirect path) :
    s.next input = s.routed (.redirect path) := by
  have hsession := s.routed_session (.redirect path)
  have hpending := s.routed_pending (.redirect path)
  rw [next, reply_of_redirect h, h, delivered, wrote_nil, Role.pending, ← hsession, ← hpending]

/-! ### Handling without a crash -/

/-- What handling an input leads to, before the file is closed that output goes to. -/
structure Handles (s : Shell) (input : Input) : Prop where
  shell : (s.handle input).shell = s.next input
  status : (s.handle input).status = if s.ends input then .finished else .running
  submitted : (s.handle input).submitted = (s.role input).submitted?
  output : (s.handle input).effects.filter Effect.isOutput
    = (s.reply input).writes.map (Effect.output s.destination) ++ input.lineBreak.map .out

theorem Smooth.handles_of_redirect {path : Option Text} (h : s.Smooth input)
    (hrole : s.role input = .redirect path) : s.Handles input := by
  have hbreak : input.lineBreak = [] := by
    obtain ⟨-, t, rfl, -⟩ := exists_line_of_redirect hrole
    rfl
  obtain ⟨effects, heq, houtput⟩ : ∃ effects,
      s.handle input = { shell := s.routed (.redirect path), effects } ∧
        effects.filter Effect.isOutput = [] := by
    rw [handle_of_redirect hrole]
    cases path with
    | none => exact ⟨[], rfl, rfl⟩
    | some path =>
      obtain ⟨bytes, hbytes⟩ := h.path path hrole
      exact redirectTo_eq hbytes
  constructor
  · rw [heq, next_of_redirect hrole]
  · rw [heq, ends_of_redirect hrole]
    rfl
  · rw [heq, hrole]
    rfl
  · rw [heq, houtput, reply_of_redirect hrole, hbreak]
    rfl

/-- The response to an input that the shell does not crash on. -/
theorem Smooth.respond_eq {goesOn : Bool} (h : s.Smooth input)
    (hgoesOn : (s.reply input).goesOn = .ok goesOn)
    (hredirect : (s.role input).isRedirect = false) :
    s.respond input =
      { shell := s.next input
        effects := (s.reply input).log.map .log
          ++ (s.reply input).writes.map (Effect.output s.destination)
        status := if goesOn then .running else .finished
        submitted := (s.role input).submitted? } := by
  have hdeliver : deliver { s with pending := (s.role input).pending s.pending }
    (s.reply input) = _ := deliver_of_accepts h.accepts hgoesOn
  rw [respond, hdeliver, next, routed_of_not_isRedirect hredirect]
  rfl

theorem Smooth.handles_of_not_redirect (h : s.Smooth input)
    (hredirect : (s.role input).isRedirect = false) : s.Handles input := by
  obtain ⟨goesOn, hgoesOn⟩ := h.goesOn
  obtain ⟨log, hlog⟩ := Shell.handle_eq hredirect
  have hrespond := h.respond_eq hgoesOn hredirect
  have hrunning : ∀ crash, (s.respond input).status ≠ .crashed crash := by
    intro crash
    rw [hrespond]
    cases goesOn <;> exact Status.noConfusion
  rw [Input.conclude_of_not_crashed hrunning, hrespond] at hlog
  constructor
  · rw [hlog]
    rfl
  · rw [hlog, ends_of_goesOn hgoesOn]
    cases goesOn <;> by_cases hend : input = .endOfInput <;> simp [hend, Step.withLog]
  · rw [hlog]
    rfl
  · rw [hlog, Step.withLog, List.filter_append, Effect.filter_isOutput_log, List.nil_append,
      List.filter_append, List.filter_append, Effect.filter_isOutput_log, List.nil_append,
      Effect.filter_isOutput_output]
    exact congrArg _ (Effect.filter_isOutput_output none input.lineBreak)

theorem Smooth.handles (h : s.Smooth input) : s.Handles input := by
  cases hredirect : (s.role input).isRedirect with
  | true =>
    obtain ⟨path, hrole⟩ := Role.exists_of_isRedirect hredirect
    exact h.handles_of_redirect hrole
  | false => exact h.handles_of_not_redirect hredirect

/-- **What a step does** that does not crash. -/
theorem Smooth.answers (h : s.Smooth input) : s.Answers input := by
  obtain ⟨hshell, hstatus, hsubmitted, houtput⟩ := h.handles
  cases hends : s.ends input with
  | true =>
    rw [hends, if_pos rfl] at hstatus
    have hstep : s.step input = { s.handle input with shell := (s.next input).close } := by
      simp only [step, hstatus, hshell]
    constructor <;> simp [hstep, hends, hstatus, hsubmitted, houtput]
  | false =>
    rw [hends] at hstatus
    have hstep : s.step input = s.handle input := by
      rw [step, hstatus]
      rfl
    constructor <;> simp [hstep, hends, hshell, hstatus, hsubmitted, houtput]

/-- **A step that does not crash** has an input that it does not crash on. -/
theorem smooth_of_not_crashed (h : ∀ crash, (s.step input).status ≠ .crashed crash) :
    s.Smooth input := by
  rw [step_status] at h
  cases hredirect : (s.role input).isRedirect with
  | true =>
    obtain ⟨path, hrole⟩ := Role.exists_of_isRedirect hredirect
    have hreply := reply_of_redirect hrole
    refine ⟨⟨true, by rw [hreply]⟩, by rw [hreply]; exact s.accepts_nil, fun path hpath => ?_⟩
    cases hbytes : pathBytes path with
    | ok bytes => exact ⟨bytes, rfl⟩
    | error crash =>
      rw [handle_of_redirect hpath, Option.elim_some, redirectTo, hbytes] at h
      exact absurd rfl (h crash)
  | false =>
    obtain ⟨log, hlog⟩ := Shell.handle_eq hredirect
    have hdeliver : ∀ crash, (deliver { s with pending := (s.role input).pending s.pending }
        (s.reply input)).status ≠ .crashed crash := by
      intro crash hcrash
      have hresponse : (s.respond input).status = .crashed crash := hcrash
      refine h crash ?_
      rw [hlog, Input.conclude_of_crashed hresponse]
      exact hresponse
    have hdelivered := accepts_of_not_crashed hdeliver
    refine ⟨hdelivered.2, hdelivered.1, fun path hpath => ?_⟩
    rw [hpath] at hredirect
    cases hredirect

/-- What a step does that crashes on what the session makes of the input. -/
theorem step_of_error {crash : Crash} (hwrites : (s.reply input).writes = [])
    (hgoesOn : (s.reply input).goesOn = .error crash) :
    (s.step input).status = .crashed crash ∧
      (s.step input).submitted = (s.role input).submitted? ∧
      (s.step input).effects.filter Effect.isOutput = [] := by
  cases hredirect : (s.role input).isRedirect with
  | true =>
    obtain ⟨path, hrole⟩ := Role.exists_of_isRedirect hredirect
    rw [reply_of_redirect hrole] at hgoesOn
    cases hgoesOn
  | false =>
    obtain ⟨log, hlog⟩ := Shell.handle_eq hredirect
    have hdeliver : deliver { s with pending := (s.role input).pending s.pending }
      (s.reply input) = _ := deliver_of_error hwrites hgoesOn
    have hresponse : (s.respond input).status = .crashed crash := by rw [respond, hdeliver]
    rw [Input.conclude_of_crashed hresponse, respond, hdeliver] at hlog
    have hstep : s.step input = { s.handle input with shell := (s.handle input).shell.close } := by
      rw [step, hlog]
      rfl
    rw [hstep, hlog]
    refine ⟨rfl, rfl, ?_⟩
    rw [Step.withLog, List.filter_append, Effect.filter_isOutput_log,
      Effect.filter_isOutput_log, List.append_nil]

end Shell

end JsonLayout
