import JsonLayout.Proofs.Text.Lines
import JsonLayout.Shell

/-!
# What an input is to the shell

Which part an input plays in the shell depends on the lines that are pending and on nothing else:
not on the options, not on the session, and not on where output goes.  What the session makes of a
part does not depend on where output goes either.  Output is delivered last.

## Main definitions

* `Role`, `Role.ofInput`: the parts, and which one an input plays.
* `Session.reply`: what a session makes of a part.
* `Shell.deliver`: writes a reply to where output goes.

## Main results

* `Shell.handle_eq`: an input is handled by delivering the reply to the part that it plays.
-/

namespace JsonLayout

/-- The part that an input plays in the shell. -/
inductive Role where
  /-- Nothing happens: a blank line or the end of the input, while nothing is pending. -/
  | idle
  /-- An interrupt, which drops the lines that are pending. -/
  | drop
  /-- A command on where output goes: to the file with a path, or to standard output. -/
  | redirect (path : Option Text)
  /-- Any other command. -/
  | command (line : Text)
  /-- A line of a JSON text that goes on. -/
  | gather (line : Text)
  /-- The end of a JSON text, which is submitted. -/
  | submit (t : Text)
deriving DecidableEq

namespace Role

/-- The part of a line while nothing is pending. -/
def ofFreshLine (line : Text) : Role :=
  if line.strip = [] then .idle
  else
    match Text.after? Shell.redirectLead line.strip with
    | some path => .redirect (some path.strip)
    | none =>
      if line.strip = Shell.redirectCommand then .redirect none
      else if Shell.isCommand line.strip then .command line.strip
      else
        match readText line.strip with
        | .ok _ => .submit line.strip
        | .error _ => .gather line

/-- The part of an input, given the lines that are pending. -/
def ofInput (pending : List Text) : Input → Role
  | .interrupt => .drop
  | .endOfInput =>
    if pending = [] then .idle else .submit (Text.join [CodePoint.lineFeed] pending)
  | .line t =>
    if pending = [] then ofFreshLine t
    else if t.strip = [] then .submit (Text.join [CodePoint.lineFeed] pending)
    else .gather t

/-- The lines that are pending after a part was played. -/
def pending (before : List Text) : Role → List Text
  | .drop | .submit _ => []
  | .gather line => before ++ [line]
  | .idle | .redirect _ | .command _ => before

/-- The JSON text that a part submits. -/
def submitted? : Role → Option Text
  | .submit t => some t
  | _ => none

/-- Whether a part is a command on where output goes. -/
def isRedirect : Role → Bool
  | .redirect _ => true
  | _ => false

/-- What begins as a redirection to a file is a command, as the bare one is. -/
theorem isCommand_of_redirect {t : Text}
    (h : (∃ path, Text.after? Shell.redirectLead t = some path) ∨ t = Shell.redirectCommand) :
    Shell.isCommand t := by
  have hstarts : ∃ rest, Text.after? Shell.redirectCommand t = some rest := by
    rcases h with ⟨path, hpath⟩ | rfl
    · rw [Text.after?_eq_some_iff] at hpath
      exact ⟨" " ++ path, Text.after?_eq_some_iff.mpr hpath⟩
    · exact ⟨[], Text.after?_eq_some_iff.mpr (List.append_nil _).symm⟩
  obtain ⟨rest, hrest⟩ := hstarts
  simp only [Shell.isCommand, Text.startsWith, hrest, Option.isSome_some, Bool.or_true]

theorem ofFreshLine_of_blank {t : Text} (h : t.strip = []) : ofFreshLine t = .idle := if_pos h

/-- A command is about where output goes, or it is another one. -/
theorem ofFreshLine_of_isCommand {t : Text} (hblank : t.strip ≠ [])
    (h : Shell.isCommand t.strip) :
    ofFreshLine t = .command t.strip ∨ ∃ path, ofFreshLine t = .redirect path := by
  rw [ofFreshLine, if_neg hblank]
  split
  · exact .inr ⟨_, rfl⟩
  · split
    · exact .inr ⟨_, rfl⟩
    · exact .inl rfl

/-- Any other line is a JSON text, which is complete or goes on. -/
theorem ofFreshLine_of_not_isCommand {t : Text} (hblank : t.strip ≠ [])
    (h : Shell.isCommand t.strip = false) :
    ofFreshLine t =
      match readText t.strip with
      | .ok _ => .submit t.strip
      | .error _ => .gather t := by
  have hredirect := mt isCommand_of_redirect (by rw [h]; exact Bool.false_ne_true)
  rw [not_or, not_exists] at hredirect
  rw [ofFreshLine, if_neg hblank]
  split
  · next path hpath => exact absurd hpath (hredirect.1 path)
  · rw [if_neg hredirect.2, h, if_neg Bool.false_ne_true]

theorem eq_submit_of_submitted? {role : Role} {t : Text} (h : role.submitted? = some t) :
    role = .submit t := by
  cases role with
  | submit u => exact congrArg submit (Option.some.inj h)
  | _ => cases h

theorem exists_of_isRedirect {role : Role} (h : role.isRedirect = true) :
    ∃ path, role = .redirect path := by
  cases role with
  | redirect path => exact ⟨path, rfl⟩
  | _ => cases h

end Role

/-! ### Replies -/

/-- What a session makes of a JSON text: it writes the output for it. -/
def Session.textReply (s : Session) (t : Text) : Session.LineResult :=
  let result := s.formatText t
  match result.value with
  | (s, .ok out) => { session := s, writes := [out.withFinalLineFeed], log := result.log }
  | (s, .error crash) => { session := s, goesOn := .error crash, log := result.log }

namespace Session

variable {s : Session} {t : Text}

theorem textReply_of_ok {out : Text} (h : (s.formatText t).value.2 = .ok out) :
    s.textReply t =
      { session := (s.formatText t).value.1
        writes := [out.withFinalLineFeed]
        log := (s.formatText t).log } := by
  rcases hresult : s.formatText t with ⟨⟨session, result⟩, log⟩
  rw [hresult] at h
  obtain rfl : result = .ok out := h
  rw [textReply, hresult]

theorem textReply_of_error {crash : Crash} (h : (s.formatText t).value.2 = .error crash) :
    s.textReply t =
      { session := (s.formatText t).value.1
        goesOn := .error crash
        log := (s.formatText t).log } := by
  rcases hresult : s.formatText t with ⟨⟨session, result⟩, log⟩
  rw [hresult] at h
  obtain rfl : result = .error crash := h
  rw [textReply, hresult]

theorem textReply_session (s : Session) (t : Text) :
    (s.textReply t).session = (s.formatText t).value.1 := by
  cases h : (s.formatText t).value.2 with
  | ok out => rw [textReply_of_ok h]
  | error crash => rw [textReply_of_error h]

end Session

/-- What a session makes of a part. -/
def Session.reply (s : Session) (files : FileStore) : Role → Session.LineResult
  | .submit t => s.textReply t
  | .command line => s.processLine files line
  | _ => { session := s }

namespace Shell

/-- Writes a reply to where output goes. -/
def deliver (s : Shell) (reply : Session.LineResult) : Step :=
  let step := Step.withLog reply.log (write { s with session := reply.session } reply.writes)
  match step.status, reply.goesOn with
  | .running, .ok true => step
  | .running, .ok false => { step with status := .finished }
  | .running, .error crash => { step with status := .crashed crash }
  | _, _ => step

theorem command_eq (s : Shell) (line : Text) :
    s.command line = s.deliver (s.session.processLine s.files line) := rfl

theorem submit_eq (s : Shell) (t : Text) :
    s.submit t = { s.deliver (s.session.textReply t) with submitted := some t } := by
  rw [submit, Session.textReply, deliver]
  rcases s.session.formatText t with ⟨⟨session, crash | out⟩, log⟩
  · rfl
  · dsimp only
    generalize write _ _ = step
    rcases step with ⟨shell, effects, status | _ | _, submitted⟩ <;> rfl

theorem submitted_write (s : Shell) (ts : List Text) : (s.write ts).submitted = none := by
  fun_induction write s ts <;> first | rfl | assumption

theorem submitted_deliver (s : Shell) (reply : Session.LineResult) :
    (s.deliver reply).submitted = none := by
  have h := submitted_write { s with session := reply.session } reply.writes
  rw [deliver]
  split <;> exact h

/-- The part that an input plays. -/
def role (s : Shell) (input : Input) : Role := .ofInput s.pending input

section

variable {s : Shell} {t : Text}

theorem role_endOfInput_of_nil (h : s.pending = []) : s.role .endOfInput = .idle := if_pos h

theorem role_endOfInput (h : s.pending ≠ []) : s.role .endOfInput = .submit s.gathered := if_neg h

theorem role_line_of_nil (h : s.pending = []) (t : Text) : s.role (.line t) = .ofFreshLine t :=
  if_pos h

theorem role_line_of_blank (h : s.pending ≠ []) (ht : t.strip = []) :
    s.role (.line t) = .submit s.gathered := (if_neg h).trans (if_pos ht)

theorem role_line_of_not_blank (h : s.pending ≠ []) (ht : t.strip ≠ []) :
    s.role (.line t) = .gather t := (if_neg h).trans (if_neg ht)

/-- Only a line plays the other parts. -/
theorem exists_line_of_role {input : Input} {role : Role} (h : s.role input = role)
    (hidle : role ≠ .idle) (hdrop : role ≠ .drop) (hsubmit : ∀ t, role ≠ .submit t) :
    ∃ t, input = .line t := by
  subst h
  cases input with
  | line t => exact ⟨t, rfl⟩
  | interrupt => exact absurd rfl hdrop
  | endOfInput =>
    by_cases h : s.pending = []
    · exact absurd (role_endOfInput_of_nil h) hidle
    · exact absurd (role_endOfInput h) (hsubmit _)

/-- A line that is gathered is the one that is read. -/
theorem eq_line_of_gather {input : Input} (h : s.role input = .gather t) : input = .line t := by
  obtain ⟨u, rfl⟩ := exists_line_of_role h (by simp) (by simp) (by simp)
  rw [role, Role.ofInput, Role.ofFreshLine] at h
  repeat' split at h
  all_goals cases h
  all_goals rfl

/-- A command is a line while nothing is pending, without the blanks around it. -/
theorem exists_line_of_command {input : Input} {line : Text} (h : s.role input = .command line) :
    s.pending = [] ∧ ∃ t, input = .line t ∧ line = t.strip := by
  obtain ⟨t, rfl⟩ := exists_line_of_role h (by simp) (by simp) (by simp)
  rw [role, Role.ofInput] at h
  split_ifs at h with hpending
  refine ⟨hpending, t, rfl, ?_⟩
  rw [Role.ofFreshLine] at h
  repeat' split at h
  all_goals cases h
  rfl

/-- The parts that an input can play while lines are pending. -/
theorem role_of_pending (h : s.pending ≠ []) (input : Input) :
    s.role input = .drop ∨ s.role input = .submit s.gathered ∨ ∃ t, s.role input = .gather t := by
  cases input with
  | interrupt => exact .inl rfl
  | endOfInput => exact .inr (.inl (role_endOfInput h))
  | line t =>
    by_cases ht : t.strip = []
    · exact .inr (.inl (role_line_of_blank h ht))
    · exact .inr (.inr ⟨t, role_line_of_not_blank h ht⟩)

end

/-- What the session makes of an input. -/
def reply (s : Shell) (input : Input) : Session.LineResult :=
  s.session.reply s.files (s.role input)

/-- Delivers the reply to an input. -/
def respond (s : Shell) (input : Input) : Step :=
  { deliver { s with pending := (s.role input).pending s.pending } (s.reply input) with
    submitted := (s.role input).submitted? }

end Shell

/-- What an interrupt and the end of the input add to a step. -/
def Input.conclude (step : Step) : Input → Step
  | .line _ => step
  | .interrupt => step.andOut "\n"
  | .endOfInput => (step.andOut "\n").finish

namespace Shell

/-- A line is handled by the part that it plays. -/
theorem freshLine_eq {s : Shell} (hpending : s.pending = []) (t : Text) :
    s.freshLine t =
      match Role.ofFreshLine t with
      | .redirect path => path.elim { shell := s.close } s.redirectTo
      | .command line => s.command line
      | .submit u => Step.withLog (Logged.read u).log (s.submit u)
      | role => { shell := { s with pending := role.pending s.pending } } := by
  simp only [freshLine, Role.ofFreshLine, List.isEmpty_iff]
  by_cases hblank : t.strip = []
  · rw [if_pos hblank, if_pos hblank]
    rfl
  rw [if_neg hblank, if_neg hblank]
  cases Text.after? redirectLead t.strip with
  | some path => rfl
  | none =>
    dsimp only
    split_ifs with hredirect hcommand
    · rfl
    · rfl
    · rw [beginText, hpending]
      cases hread : readText t.strip with
      | ok j => simp only [Logged.read, hread]
      | error e => simp only [Logged.read, hread]; rfl

/-- A part that the session has nothing to say about: only the pending lines change. -/
theorem respond_of_quiet {s : Shell} {input : Input} (hsubmit : (s.role input).submitted? = none)
    (hcommand : ∀ line, s.role input ≠ .command line) :
    s.respond input = { shell := { s with pending := (s.role input).pending s.pending } } := by
  rw [respond, reply]
  cases hrole : s.role input with
  | submit t => rw [hrole] at hsubmit; cases hsubmit
  | command line => exact absurd hrole (hcommand line)
  | _ => rfl

theorem respond_of_command {s : Shell} {input : Input} {line : Text}
    (hrole : s.role input = .command line) : s.respond input = s.command line := by
  have hsubmitted := s.submitted_deliver (s.reply input)
  rw [reply, hrole] at hsubmitted
  rw [respond, reply, hrole, command_eq]
  exact congrArg (fun t => { s.deliver _ with submitted := t }) hsubmitted.symm

theorem respond_of_submit {s : Shell} {input : Input} {t : Text}
    (hrole : s.role input = .submit t) :
    s.respond input = submit { s with pending := [] } t := by
  rw [respond, reply, hrole, submit_eq]
  rfl

/-! ### Handling -/

/-- A line while nothing is pending, if it is not about where output goes. -/
theorem handle_line_of_nil {s : Shell} {t : Text} (hpending : s.pending = [])
    (h : (s.role (.line t)).isRedirect = false) :
    ∃ log, s.handle (.line t) = Step.withLog log (s.respond (.line t)) := by
  have hhandle : s.handle (.line t) = s.freshLine t := if_pos (by rw [hpending]; rfl)
  rw [hhandle, freshLine_eq hpending, ← role_line_of_nil hpending]
  cases hrole : s.role (.line t) with
  | redirect path =>
    rw [hrole] at h
    cases h
  | submit u =>
    have hself : { s with pending := [] } = s := by rw [← hpending]
    rw [respond_of_submit hrole, hself]
    exact ⟨_, rfl⟩
  | command line =>
    rw [respond_of_command hrole]
    exact ⟨[], rfl⟩
  | _ =>
    rw [respond_of_quiet (by rw [hrole]; rfl) (by simp [hrole]), hrole]
    exact ⟨[], rfl⟩

/-- A line while lines are pending. -/
theorem handle_line_of_pending {s : Shell} (hpending : s.pending ≠ []) (t : Text) :
    s.handle (.line t) = s.respond (.line t) := by
  rw [handle, if_neg (by simpa using hpending)]
  by_cases hblank : t.strip = []
  · rw [respond_of_submit (role_line_of_blank hpending hblank), if_pos (by rw [hblank]; rfl)]
    rfl
  · have hrole := role_line_of_not_blank hpending hblank
    rw [respond_of_quiet (by rw [hrole]; rfl) (by simp [hrole]), hrole,
      if_neg (by simpa using hblank)]
    rfl

theorem handle_endOfInput (s : Shell) :
    s.handle .endOfInput = Input.endOfInput.conclude (s.respond .endOfInput) := by
  by_cases hpending : s.pending = []
  · have hrole := role_endOfInput_of_nil hpending
    rw [respond_of_quiet (by rw [hrole]; rfl) (by simp [hrole]), hrole, handle,
      if_pos (by rw [hpending]; rfl)]
    rfl
  · rw [respond_of_submit (role_endOfInput hpending), handle, if_neg (by simpa using hpending)]
    rfl

/-- **An input is handled** by delivering the reply to the part that it plays, unless that part is
about where output goes. -/
theorem handle_eq {s : Shell} {input : Input} (h : (s.role input).isRedirect = false) :
    ∃ log, s.handle input = Step.withLog log (input.conclude (s.respond input)) := by
  cases input with
  | interrupt => exact ⟨[], rfl⟩
  | endOfInput => exact ⟨[], s.handle_endOfInput⟩
  | line t =>
    by_cases hpending : s.pending = []
    · exact handle_line_of_nil hpending h
    · exact ⟨[], handle_line_of_pending hpending t⟩

end Shell

end JsonLayout
