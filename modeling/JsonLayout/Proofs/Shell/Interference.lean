import JsonLayout.Proofs.Shell.Run

/-!
# Where output goes does not matter

Commands on where output goes change nothing else.  A run and the same run without these commands go
through the same sessions and the same pending lines, and emit the same texts.  Only a command that
formats a file could tell the difference, since output goes to files.

## Main definitions

* `Shell.withoutRedirects`: the inputs of a run without those commands.
* `Moment.view`: what is left of a moment when files and destinations are forgotten.
* `Alike`: shells that differ in nothing else.

## Main results

* `Shell.redirection_invisible`: both runs look the same.
-/

namespace JsonLayout

/-! ### Deletion and views -/

/-- Inputs without those that a run from a shell handles as commands on where output goes. -/
def Shell.withoutRedirects (s : Shell) : List Input → List Input
  | [] => []
  | input :: inputs =>
    match (s.step input).status with
    | .running =>
      if (s.role input).isRedirect then withoutRedirects (s.step input).shell inputs
      else input :: withoutRedirects (s.step input).shell inputs
    | _ => input :: inputs

/-- The text of an effect that is output, wherever it goes. -/
def Effect.text? : Effect → Option Text
  | .out t | .file _ t => some t
  | .err _ | .log _ => none

/-- What a moment leads to, apart from files and from where output goes. -/
structure View where
  input : Input
  session : Session
  pending : List Text
  emitted : List Text
  status : Status
deriving DecidableEq

namespace Moment

/-- What is left of a moment when files and destinations are forgotten. -/
def view (m : Moment) : View :=
  { input := m.input
    session := m.step.shell.session
    pending := m.step.shell.pending
    emitted := m.step.effects.filterMap Effect.text?
    status := m.step.status }

/-- Whether the input in a moment is no command on where output goes. -/
def remains (m : Moment) : Bool := !m.role.isRedirect

/-- Whether the command in a moment formats a file. -/
def readsFile (m : Moment) : Bool :=
  match m.role with
  | .command line => line.startsWith Session.formatFileLead
  | _ => false

end Moment

/-- Shells that differ in their files and in where output goes, the second of which writes to
standard output. -/
structure Alike (s s' : Shell) : Prop where
  session : s.session = s'.session
  pending : s.pending = s'.pending
  redirect : s'.redirect = none

/-! ### Replies -/

/-- Files do not matter to a line that does not format one. -/
theorem Session.processLine_files (s : Session) {line : Text}
    (h : Text.after? formatFileLead line.strip = none) (files files' : FileStore) :
    s.processLine files line = s.processLine files' line := by
  unfold processLine
  simp only [h]

theorem Effect.filterMap_text?_filter (effects : List Effect) :
    (effects.filter isOutput).filterMap text? = effects.filterMap text? := by
  rw [List.filterMap_filter]
  refine List.filterMap_congr fun effect _ => ?_
  cases effect <;> rfl

theorem Effect.filterMap_text?_output (destination : Option Location) (ts : List Text) :
    (ts.map (output destination)).filterMap text? = ts := by
  rw [List.filterMap_map]
  cases destination <;> exact List.filterMap_some

namespace Shell

variable {s s' : Shell} {input : Input}

/-- A moment that does not crash, seen without files and destinations. -/
theorem Smooth.view_eq (h : s.Smooth input) :
    Moment.view ⟨s, input⟩ =
      { input
        session := (s.reply input).session
        pending := (s.role input).pending s.pending
        emitted := (s.reply input).writes ++ input.lineBreak
        status := if s.ends input then .finished else .running } := by
  have hanswers := h.answers
  have hpending : (s.step input).shell.pending = (s.role input).pending s.pending := by
    rw [hanswers.shell]
    split
    · exact close_pending _
    · rfl
  have hemitted : (s.step input).effects.filterMap Effect.text?
      = (s.reply input).writes ++ input.lineBreak := by
    rw [← Effect.filterMap_text?_filter, hanswers.output, List.filterMap_append,
      Effect.filterMap_text?_output]
    exact congrArg _ (Effect.filterMap_text?_output none input.lineBreak)
  simp only [Moment.view, Moment.step, hanswers.session, hpending, hemitted, hanswers.status]

end Shell

namespace Alike

variable {s s' : Shell} {input : Input}

theorem role_eq (h : Alike s s') (input : Input) : s.role input = s'.role input :=
  congrArg (Role.ofInput · input) h.pending

/-- Shells that are alike make the same of an input that does not format a file. -/
theorem reply_eq (h : Alike s s') (hfile : Moment.readsFile ⟨s, input⟩ = false) :
    s.reply input = s'.reply input := by
  rw [Shell.reply, Shell.reply, ← h.role_eq, ← h.session]
  rw [Moment.readsFile, Moment.role] at hfile
  cases hrole : s.role input with
  | command line =>
    rw [hrole] at hfile
    obtain ⟨-, t, -, rfl⟩ := Shell.exists_line_of_command hrole
    refine s.session.processLine_files ?_ _ _
    rw [Text.strip_strip]
    simpa [Text.startsWith] using hfile
  | _ => rfl

/-- Shells that are alike end alike. -/
theorem ends_eq (h : Alike s s') (hfile : Moment.readsFile ⟨s, input⟩ = false) :
    s.ends input = s'.ends input := by
  have hreply := h.reply_eq hfile
  unfold Shell.ends
  rw [hreply]

/-- A shell that writes to standard output gets through what another one like it gets through. -/
theorem smooth (h : Alike s s') (hfile : Moment.readsFile ⟨s, input⟩ = false)
    (hsmooth : s.Smooth input) : s'.Smooth input := by
  refine ⟨h.reply_eq hfile ▸ hsmooth.goesOn, fun hne => absurd h.redirect hne, ?_⟩
  rw [← h.role_eq]
  exact hsmooth.path

/-- **The step lemma.**  Shells that are alike look the same after an input. -/
theorem view_eq (h : Alike s s') (hfile : Moment.readsFile ⟨s, input⟩ = false)
    (hsmooth : s.Smooth input) : Moment.view ⟨s', input⟩ = Moment.view ⟨s, input⟩ := by
  rw [hsmooth.view_eq, (h.smooth hfile hsmooth).view_eq, ← h.reply_eq hfile, ← h.role_eq,
    ← h.ends_eq hfile, ← h.pending]

/-- Shells stay alike after an input that is not about where output goes. -/
theorem next (h : Alike s s') (hfile : Moment.readsFile ⟨s, input⟩ = false)
    (hredirect : (s.role input).isRedirect = false) : Alike (s.next input) (s'.next input) := by
  constructor
  · exact congrArg Session.LineResult.session (h.reply_eq hfile)
  · show (s.role input).pending s.pending = (s'.role input).pending s'.pending
    rw [h.role_eq, h.pending]
  · rw [h.role_eq] at hredirect
    rw [Shell.next, Shell.routed_of_not_isRedirect hredirect]
    show Option.map _ s'.redirect = none
    rw [h.redirect]
    rfl

/-- A command on where output goes leaves shells alike that only one of them meets. -/
theorem next_of_redirect (h : Alike s s') (hredirect : (s.role input).isRedirect = true) :
    Alike (s.next input) s' := by
  obtain ⟨path, hpath⟩ := Role.exists_of_isRedirect hredirect
  rw [Shell.next_of_redirect hpath]
  exact ⟨(s.routed_session _).trans h.session, (s.routed_pending _).trans h.pending, h.redirect⟩

end Alike

/-! ### Runs -/

namespace Shell

variable {s s' : Shell} {input : Input} {inputs : List Input}

theorem withoutRedirects_of_redirect (hstatus : (s.step input).status = .running)
    (h : (s.role input).isRedirect = true) :
    s.withoutRedirects (input :: inputs) = (s.step input).shell.withoutRedirects inputs := by
  rw [withoutRedirects, hstatus]
  exact if_pos h

theorem withoutRedirects_of_other (hstatus : (s.step input).status = .running)
    (h : (s.role input).isRedirect = false) :
    s.withoutRedirects (input :: inputs)
      = input :: (s.step input).shell.withoutRedirects inputs := by
  rw [withoutRedirects, hstatus]
  exact if_neg (by rw [h]; exact Bool.false_ne_true)

theorem withoutRedirects_of_finished (hstatus : (s.step input).status = .finished) :
    s.withoutRedirects (input :: inputs) = input :: inputs := by
  rw [withoutRedirects, hstatus]

theorem remains_of_not_redirect (h : (s.role input).isRedirect = false) :
    Moment.remains ⟨s, input⟩ = true := by
  rw [Moment.remains, Moment.role, h]
  rfl

/-- **The run lemma.**  Shells that are alike go through runs that look the same, if one of them is
spared the commands on where output goes. -/
theorem map_view_withoutRedirects (h : Alike s s')
    (hsmooth : ∀ m ∈ s.moments inputs, m.shell.Smooth m.input)
    (hfile : ∀ m ∈ s.moments inputs, m.readsFile = false) :
    (s'.moments (s.withoutRedirects inputs)).map Moment.view
      = ((s.moments inputs).filter Moment.remains).map Moment.view := by
  induction inputs generalizing s s' with
  | nil =>
    have hview := h.view_eq (hfile _ List.mem_cons_self) (hsmooth _ List.mem_cons_self)
    have hkept := remains_of_not_redirect (isRedirect_of_ends s.ends_endOfInput)
    rw [withoutRedirects, moments, moments, List.filter_cons_of_pos hkept]
    exact congrArg (· :: []) hview
  | cons input inputs ih =>
    have hinput : s.Smooth input := hsmooth _ (s.first_mem_moments input inputs)
    have hfirst := hfile _ (s.first_mem_moments input inputs)
    have hview := h.view_eq hfirst hinput
    have hinput' := h.smooth hfirst hinput
    cases hends : s.ends input with
    | true =>
      -- both runs end here
      obtain ⟨-, hstatus⟩ := hinput.step_of_ends hends
      obtain ⟨-, hstatus'⟩ := hinput'.step_of_ends (h.ends_eq hfirst ▸ hends)
      have hkept := remains_of_not_redirect (isRedirect_of_ends hends)
      rw [withoutRedirects_of_finished hstatus, moments_of_finished hstatus,
        moments_of_finished hstatus', List.filter_cons_of_pos hkept]
      exact congrArg (· :: []) hview
    | false =>
      obtain ⟨hshell, hstatus⟩ := hinput.step_of_goesOn hends
      rw [moments_of_running hstatus, List.forall_mem_cons, hshell] at hsmooth hfile
      cases hredirect : (s.role input).isRedirect with
      | true =>
        -- the other run is spared this input
        have hdeleted : ¬ Moment.remains ⟨s, input⟩ = true := by
          rw [Moment.remains, Moment.role, hredirect]
          exact Bool.false_ne_true
        rw [withoutRedirects_of_redirect hstatus hredirect, moments_of_running hstatus,
          List.filter_cons_of_neg hdeleted, hshell]
        exact ih (h.next_of_redirect hredirect) hsmooth.2 hfile.2
      | false =>
        obtain ⟨hshell', hstatus'⟩ := hinput'.step_of_goesOn (h.ends_eq hfirst ▸ hends)
        have hkept := remains_of_not_redirect hredirect
        rw [withoutRedirects_of_other hstatus hredirect, moments_of_running hstatus,
          moments_of_running hstatus', List.filter_cons_of_pos hkept, hshell, hshell',
          List.map_cons, List.map_cons, hview, ih (h.next hfirst hredirect) hsmooth.2 hfile.2]

/-- **Where output goes does not matter.**  A run without a crash that formats no files looks, after
every input but the commands on where output goes, like the run without these commands: the session,
the pending lines and the texts that are emitted are the same. -/
theorem redirection_invisible (hredirect : s.redirect = none) (h : s.Completes inputs)
    (hfile : ∀ m ∈ s.moments inputs, m.readsFile = false) :
    (s.moments (s.withoutRedirects inputs)).map Moment.view
      = ((s.moments inputs).filter Moment.remains).map Moment.view :=
  map_view_withoutRedirects ⟨rfl, rfl, hredirect⟩ h.smooth_moments hfile

/-- A file is opened, a path cannot be opened, and a line that looks like a command is part of a
JSON text. -/
theorem redirection_invisible_three_redirects :
    let s : Shell := ⟨⟨{}, [], none, none⟩, {}, [], none⟩
    let inputs : List Input := [.line "?>> a", .line "[1,", .line "?>> b", .line "", .line "?>> c/d",
      .line ":history", .line " ?>>", .line "2", .interrupt]
    s.withoutRedirects inputs = [.line "[1,", .line "?>> b", .line "", .line ":history", .line "2",
        .interrupt] ∧
      (s.moments (s.withoutRedirects inputs)).map Moment.view
        = ((s.moments inputs).filter Moment.remains).map Moment.view := by
  intro s inputs
  refine ⟨by decide +kernel, ?_⟩
  exact redirection_invisible (show s.redirect = none from rfl)
    (show s.Completes inputs by decide +kernel)
    (show ∀ m ∈ s.moments inputs, m.readsFile = false by decide +kernel)

end Shell

end JsonLayout
