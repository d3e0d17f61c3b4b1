import JsonLayout.Proofs.Reading.Ends
import JsonLayout.Proofs.Shell.Run

/-!
# Lines that begin as commands do

A line that begins with a colon or a question mark looks like a command.  The shell takes it for one
and is ready for the next line then, with one exception: a question mark that begins neither of the
commands on files begins a JSON text, although no JSON text begins so.  The lines after it are
gathered with it, commands among them.

## Main definitions

* `Text.IsCommandLike`, `Text.IsStrayQuery`: the lines in question, and the exception.
* `Shell.Gathers`: what the lines that are pending begin with.

## Main results

* `Shell.step_pending`: which lines are pending after a step, even one that crashes.
* `Shell.pending_step_of_commandLike`: what becomes of a line that looks like a command.
* `Shell.gathers_of_mem_moments`: along a run, no JSON text that is gathered begins with a command.
-/

namespace JsonLayout

namespace Text

variable {line : Text}

/-- A line that begins as commands do. -/
def IsCommandLike (line : Text) : Prop := line.startsWith ":" ∨ line.startsWith "?"

/-- A line with a question mark that begins neither of the commands on files. -/
def IsStrayQuery (line : Text) : Prop :=
  line.startsWith "?" ∧ ¬ line.startsWith Session.formatFileLead ∧
    ¬ line.startsWith Shell.redirectCommand

instance (line : Text) : Decidable line.IsStrayQuery :=
  inferInstanceAs (Decidable (_ ∧ _ ∧ _))

/-- No JSON text begins with a question mark. -/
theorem exists_error_of_query (h : line.startsWith "?") : ∃ e, readText line = .error e := by
  obtain ⟨rest, hrest⟩ := Option.isSome_iff_exists.mp h
  rw [after?_eq_some_iff] at hrest
  cases hread : readText line with
  | error e => exact ⟨e, rfl⟩
  | ok j =>
    exfalso
    obtain ⟨c, u, hdrop, hc, -⟩ := exists_dropWhile_isBlank_of_readText hread
    have hquery : line.dropWhile CodePoint.isBlank = CodePoint.ofChar '?' :: rest := by
      rw [hrest]
      exact List.dropWhile_cons_of_neg (by decide)
    rw [hquery, List.cons.injEq] at hdrop
    rw [← hdrop.1] at hc
    exact absurd hc (by decide)

/-- What looks like a command is one, but for the stray queries. -/
theorem IsCommandLike.isCommand_iff (h : line.IsCommandLike) :
    Shell.isCommand line = true ↔ ¬ line.IsStrayQuery := by
  have hcolon : line.startsWith ":" → ¬ line.startsWith "?" := by
    intro hcolon hquery
    obtain ⟨rest, hrest⟩ := Option.isSome_iff_exists.mp hcolon
    obtain ⟨rest', hrest'⟩ := Option.isSome_iff_exists.mp hquery
    rw [after?_eq_some_iff] at hrest hrest'
    rw [hrest] at hrest'
    exact absurd (List.cons.inj hrest').1 (by decide)
  rw [Shell.isCommand, IsStrayQuery]
  rcases h with h | h
  · simp [h, hcolon h]
  · have hcolon : line.startsWith ":" = false :=
      Bool.eq_false_iff.mpr fun hc => hcolon hc h
    simp only [h, hcolon, Bool.false_or, Bool.or_eq_true, true_and]
    tauto

end Text

namespace Role

variable {t : Text}

/-- **The part** of a line that looks like a command. -/
theorem ofFreshLine_of_commandLike (h : t.strip.IsCommandLike) :
    (t.strip.IsStrayQuery ∧ ofFreshLine t = .gather t) ∨
      ¬ t.strip.IsStrayQuery ∧
        (ofFreshLine t = .command t.strip ∨ ∃ path, ofFreshLine t = .redirect path) := by
  have hblank : t.strip ≠ [] := by
    intro hnil
    rw [hnil] at h
    rcases h with h | h <;> cases h
  by_cases hstray : t.strip.IsStrayQuery
  · have hcommand : Shell.isCommand t.strip = false := by
      rw [← Bool.not_eq_true, h.isCommand_iff, not_not]
      exact hstray
    obtain ⟨e, he⟩ := Text.exists_error_of_query hstray.1
    refine .inl ⟨hstray, ?_⟩
    rw [ofFreshLine_of_not_isCommand hblank hcommand, he]
  · exact .inr ⟨hstray, ofFreshLine_of_isCommand hblank (h.isCommand_iff.mpr hstray)⟩

end Role

/-! ### Pending lines -/

theorem Input.conclude_shell (step : Step) (input : Input) :
    (input.conclude step).shell = step.shell := by
  have hout (t : Text) : (step.andOut t).shell = step.shell := by
    rw [Step.andOut]
    split <;> rfl
  cases input with
  | line t => rfl
  | interrupt => exact hout _
  | endOfInput =>
    rw [conclude, Step.finish, ← hout "\n"]
    split <;> rfl

namespace Shell

variable {s : Shell} {input : Input} {inputs : List Input} {t : Text}

theorem write_pending (s : Shell) (ts : List Text) : (s.write ts).shell.pending = s.pending := by
  fun_induction write s ts <;> first | rfl | assumption

theorem deliver_pending (s : Shell) (reply : Session.LineResult) :
    (s.deliver reply).shell.pending = s.pending := by
  have h := write_pending { s with session := reply.session } reply.writes
  rw [deliver]
  split <;> exact h

theorem redirectTo_pending (s : Shell) (path : Text) :
    (s.redirectTo path).shell.pending = s.pending := by
  have h := s.close_pending
  rw [redirectTo]
  cases pathBytes path with
  | error crash => exact h
  | ok bytes =>
    dsimp only
    cases s.close.files.create bytes with
    | error e => exact h
    | ok place => exact h

/-- **The pending lines** after a step are those that its part leaves, even if the step crashes. -/
theorem step_pending (s : Shell) (input : Input) :
    (s.step input).shell.pending = (s.role input).pending s.pending := by
  have hstep : (s.step input).shell.pending = (s.handle input).shell.pending := by
    rw [step]
    split
    · rfl
    · exact close_pending _
  rw [hstep]
  cases hredirect : (s.role input).isRedirect with
  | true =>
    obtain ⟨path, hrole⟩ := Role.exists_of_isRedirect hredirect
    rw [handle_of_redirect hrole, hrole]
    cases path with
    | none => exact s.close_pending
    | some path => exact s.redirectTo_pending path
  | false =>
    -- the pending lines are settled before the session is asked and anything is written
    obtain ⟨log, hlog⟩ := handle_eq hredirect
    have hrespond := deliver_pending { s with pending := (s.role input).pending s.pending }
      (s.reply input)
    rw [hlog, Step.withLog, Input.conclude_shell]
    exact hrespond

/-- **A line that looks like a command** leaves nothing pending, so that the next line is met
afresh, unless it is a stray query: then it is pending itself. -/
theorem pending_step_of_commandLike (hpending : s.pending = []) (h : t.strip.IsCommandLike) :
    (t.strip.IsStrayQuery ∧ s.step (.line t) = { shell := { s with pending := [t] } }) ∨
      ¬ t.strip.IsStrayQuery ∧ (s.step (.line t)).shell.pending = [] ∧
        ∀ u, (s.step (.line t)).shell.role (.line u) = .ofFreshLine u := by
  rcases Role.ofFreshLine_of_commandLike h with ⟨hstray, hfresh⟩ | ⟨hstray, hfresh⟩
  · refine .inl ⟨hstray, ?_⟩
    have hhandle : s.handle (.line t) = s.freshLine t := if_pos (by rw [hpending]; rfl)
    have hline := freshLine_eq hpending t
    rw [hfresh, ← hhandle] at hline
    rw [step, hline, hpending]
    rfl
  · have hnone : (s.step (.line t)).shell.pending = [] := by
      rw [step_pending, role_line_of_nil hpending, hpending]
      rcases hfresh with hfresh | ⟨path, hfresh⟩ <;> rw [hfresh] <;> rfl
    exact .inr ⟨hstray, hnone, role_line_of_nil hnone⟩

/-- A command that nobody knows, and two that lack what should follow. -/
theorem pending_step_three_lines :
    let s : Shell := { session := { options := {} }, files := {} }
    (s.step (.line " :help")).shell.pending = [] ∧ (s.step (.line "?>>x")).shell.pending = [] ∧
      (s.step (.line "?<< ")).shell.pending = [("?<< " : Text)] := by
  intro s
  refine ⟨?_, ?_, ?_⟩
  · rcases pending_step_of_commandLike (s := s) (t := " :help") rfl (.inl (by decide)) with
      ⟨hstray, -⟩ | ⟨-, h, -⟩
    · exact absurd hstray (by decide)
    · exact h
  · rcases pending_step_of_commandLike (s := s) (t := "?>>x") rfl (.inr (by decide)) with
      ⟨hstray, -⟩ | ⟨-, h, -⟩
    · exact absurd hstray (by decide)
    · exact h
  · rcases pending_step_of_commandLike (s := s) (t := "?<< ") rfl (.inr (by decide)) with
      ⟨-, h⟩ | ⟨hstray, -⟩
    · rw [h]
    · exact absurd hstray (by decide)

/-- A question mark alone is pending. -/
theorem not_pending_eq_nil_of_query :
    ¬ ∀ (s : Shell) (t : Text), s.pending = [] → t.strip.IsCommandLike →
      (s.step (.line t)).shell.pending = [] := by
  intro h
  have hnone := h { session := { options := {} }, files := {} } "?help" rfl (.inr (by decide))
  have hpending : (step { session := { options := {} }, files := {} }
      (.line "?help")).shell.pending = [("?help" : Text)] := by
    decide +kernel
  cases hpending.symm.trans hnone

/-! ### Runs -/

/-- What is pending begins with a line that is neither blank nor a command nor a JSON text. -/
def Gathers (s : Shell) : Prop :=
  ∀ line ∈ s.pending.head?, line.strip ≠ [] ∧ isCommand line.strip = false ∧
    ∃ e, readText line.strip = .error e

theorem gathers_of_ofFreshLine (h : Role.ofFreshLine t = .gather t) :
    t.strip ≠ [] ∧ isCommand t.strip = false ∧ ∃ e, readText t.strip = .error e := by
  have hblank : t.strip ≠ [] := by
    intro hblank
    rw [Role.ofFreshLine_of_blank hblank] at h
    cases h
  have hcommand : isCommand t.strip = false := by
    rw [← Bool.not_eq_true]
    intro hcommand
    rcases Role.ofFreshLine_of_isCommand hblank hcommand with hrole | ⟨path, hrole⟩ <;>
      cases hrole.symm.trans h
  refine ⟨hblank, hcommand, ?_⟩
  rw [Role.ofFreshLine_of_not_isCommand hblank hcommand] at h
  cases hread : readText t.strip with
  | error e => exact ⟨e, rfl⟩
  | ok j =>
    rw [hread] at h
    cases h

/-- A step goes on with what is pending, or begins anew. -/
theorem Gathers.step (h : s.Gathers) (input : Input) : (s.step input).shell.Gathers := by
  rw [Gathers, step_pending]
  cases hrole : s.role input with
  | drop => exact nofun
  | submit t => exact nofun
  | gather t =>
    obtain rfl := eq_line_of_gather hrole
    rw [Role.pending]
    by_cases hpending : s.pending = []
    · rw [role_line_of_nil hpending] at hrole
      rw [hpending]
      rintro _ ⟨⟩
      exact gathers_of_ofFreshLine hrole
    · -- what is gathered goes behind the line that began it
      rw [List.head?_append_of_ne_nil _ hpending]
      exact h
  | _ => exact h

/-- **Along a run**, no JSON text that is gathered begins with a command. -/
theorem gathers_of_mem_moments (h : s.Gathers) : ∀ m ∈ s.moments inputs, m.shell.Gathers := by
  induction inputs generalizing s with
  | nil => exact List.forall_mem_singleton.mpr h
  | cons input inputs ih =>
    by_cases hrunning : (s.step input).status = .running
    · rw [moments_of_running hrunning, List.forall_mem_cons]
      exact ⟨h, ih (h.step input)⟩
    · rw [moments_of_not_running hrunning]
      exact List.forall_mem_singleton.mpr h

end Shell

end JsonLayout
