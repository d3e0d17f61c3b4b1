import JsonLayout.Proofs.Reading.PrefixFree
import JsonLayout.Proofs.Session
import JsonLayout.Proofs.Shell.Run

/-!
# Pasting a text

Lines that are pasted into the shell, with a blank line after them, are formatted as the text that
they make up.  The first line of a JSON text is no command.  If more lines follow, it is not
complete, because only white space may follow a complete text; so it is gathered, and the other
lines are as well, up to the blank one.

## Main definitions

* `Text.pasted`: the lines of a text as inputs, and a blank line.
* `Text.submission`: what is submitted of a text.
* `Shell.Leads`: inputs that lead from one shell to another.

## Main results

* `isJsonBlank_of_readText_line`: what a complete line leaves to the lines behind it.
* `isCommand_firstLine`, `readText_firstLine`: the first line of a JSON text.
* `Shell.paste_formats`: pasting a text is formatting it.
-/

namespace JsonLayout

open Text

/-! ### The first line -/

section

variable {t line : Text} {lines : List Text} {j : Json}

/-- A text is its first line, followed by the others if there are any. -/
theorem Text.eq_append_of_splitLines (h : t.splitLines = line :: lines) :
    t = line ++ if lines = [] then [] else
      CodePoint.lineFeed :: join [CodePoint.lineFeed] lines := by
  rw [← join_splitLines t, h]
  split
  · next hnil => rw [hnil, join_singleton, List.append_nil]
  · next hne => rw [join_cons _ _ hne]; rfl

/-- The first line of a JSON text, without the blanks around it, begins as a value does. -/
theorem strip_firstLine (ht : readText t = .ok j) {rest : Text} (h : t = line ++ rest)
    (hline : line.strip ≠ []) :
    ∃ c u w, line.strip = c :: u ∧ c.startsValue ∧ (∀ d ∈ w, CodePoint.isBlank d) ∧
      readText (c :: u ++ (w ++ rest)) = .ok j := by
  obtain ⟨c, v, hdrop, hc, hread⟩ := exists_dropWhile_isBlank_of_readText ht
  obtain ⟨w, hw, hstrip⟩ := exists_dropWhile_isBlank line
  obtain ⟨d, u, hdu⟩ := List.exists_cons_of_ne_nil hline
  have happend : t.dropWhile CodePoint.isBlank = d :: u ++ (w ++ rest) := by
    rw [h, List.dropWhile_append, hstrip, hdu]
    exact List.append_assoc _ w rest
  obtain ⟨rfl, rfl⟩ := List.cons.inj (hdrop.symm.trans happend)
  exact ⟨c, u, w, hdu, hc, hw, hread⟩

/-- What begins as a value does is not a command. -/
theorem Shell.isCommand_of_startsValue {c : CodePoint} (hc : c.startsValue) (u : Text) :
    isCommand (c :: u) = false := by
  have hcolon : startsWith (c :: u) (CodePoint.ofChar ':' :: []) = false :=
    startsWith_of_startsValue hc rfl _ _
  have hfile : startsWith (c :: u) (CodePoint.ofChar '?' :: "<< ") = false :=
    startsWith_of_startsValue hc rfl _ _
  have hredirect : startsWith (c :: u) (CodePoint.ofChar '?' :: ">>") = false :=
    startsWith_of_startsValue hc rfl _ _
  exact Bool.or_eq_false_iff.mpr ⟨Bool.or_eq_false_iff.mpr ⟨hcolon, hfile⟩, hredirect⟩

/-- A JSON text is not a command. -/
theorem isCommand_strip_of_readText (ht : readText t = .ok j) :
    Shell.isCommand t.strip = false := by
  obtain ⟨c, u, hstrip, hc⟩ := exists_strip_eq_cons_of_readText ht
  rw [hstrip]
  exact Shell.isCommand_of_startsValue hc u

/-- The first line of a JSON text is not a command. -/
theorem isCommand_firstLine (ht : readText t = .ok j) (h : t.splitLines = line :: lines)
    (hline : line.strip ≠ []) : Shell.isCommand line.strip = false := by
  obtain ⟨c, u, -, hstrip, hc, -⟩ := strip_firstLine ht (eq_append_of_splitLines h) hline
  rw [hstrip]
  exact Shell.isCommand_of_startsValue hc u

/-- A line that is complete without the blanks around it leaves nothing to the lines behind it, and
they do not change its value. -/
theorem isJsonBlank_of_readText_line {more : Text} {k : Json} (hfirst : readText line.strip = .ok k)
    (ht : readText (line ++ CodePoint.lineFeed :: more) = .ok j) : more.IsJsonBlank ∧ j = k := by
  obtain ⟨c, u, w, hstrip, -, hw, hread⟩ := strip_firstLine ht rfl (ne_nil_of_readText hfirst)
  rw [← hstrip] at hread
  have houtside : BeginsOutside CodePoint.isNumberPart (w ++ CodePoint.lineFeed :: more) :=
    beginsOutside_append_of_isBlank hw (beginsOutside_cons_iff.mpr rfl)
  have hblank := isJsonBlank_of_readText_append hfirst houtside hread
  refine ⟨fun d hd => hblank d (List.mem_append_right w (List.mem_cons_of_mem _ hd)), ?_⟩
  exact Except.ok.inj (hread.symm.trans (readText_append_blank hfirst hblank))

/-- **The first line** of a JSON text over several lines is not complete: what follows it is more
than white space. -/
theorem readText_firstLine (ht : readText t = .ok j) (h : t.splitLines = line :: lines)
    (hne : lines ≠ []) (hlines : ∀ l ∈ lines, l.strip ≠ []) :
    ∃ e, readText line.strip = .error e := by
  cases hfirst : readText line.strip with
  | error e => exact ⟨e, rfl⟩
  | ok k =>
    exfalso
    rw [eq_append_of_splitLines h, if_neg hne] at ht
    have hblank := (isJsonBlank_of_readText_line hfirst ht).1
    obtain ⟨next, others, rfl⟩ := List.exists_cons_of_ne_nil hne
    refine hlines next List.mem_cons_self (strip_eq_nil_iff.mpr fun d hd => ?_)
    refine CodePoint.isBlank_of_isJsonBlank (hblank d ?_)
    rw [join, List.mem_flatten]
    exact ⟨next, by cases others <;> simp [List.intersperse], hd⟩

end

/-! ### Inputs that lead on -/

namespace Shell

variable {s s' s'' : Shell} {inputs inputs' : List Input} {ts ts' : List Text}
  {output output' : List Effect} {crash : Crash}

/-- Inputs that lead from one shell to another.  The texts are submitted on the way, and the output
is written. -/
def Leads (s : Shell) (inputs : List Input) (ts : List Text) (output : List Effect)
    (s' : Shell) : Prop :=
  ∃ steps, (∀ rest, s.run (inputs ++ rest) = steps ++ s'.run rest) ∧
    steps.filterMap Step.submitted = ts ∧
    (steps.flatMap fun step => step.effects.filter Effect.isOutput) = output

/-- Inputs that lead to a crash.  The texts are submitted on the way, and no output is written. -/
def Breaks (s : Shell) (inputs : List Input) (ts : List Text) (crash : Crash) : Prop :=
  ∃ steps, (∀ rest, s.run (inputs ++ rest) = steps) ∧
    steps.filterMap Step.submitted = ts ∧
    (steps.flatMap fun step => step.effects.filter Effect.isOutput) = [] ∧
    steps.getLast?.map Step.status = some (.crashed crash)

theorem Leads.refl (s : Shell) : s.Leads [] [] [] s := ⟨[], fun _ => rfl, rfl, rfl⟩

theorem Leads.trans (h : s.Leads inputs ts output s') (h' : s'.Leads inputs' ts' output' s'') :
    s.Leads (inputs ++ inputs') (ts ++ ts') (output ++ output') s'' := by
  obtain ⟨steps, hrun, rfl, rfl⟩ := h
  obtain ⟨steps', hrun', rfl, rfl⟩ := h'
  refine ⟨steps ++ steps', fun rest => ?_, List.filterMap_append, List.flatMap_append⟩
  rw [List.append_assoc, hrun, hrun', List.append_assoc]

theorem Leads.breaks (h : s.Leads inputs [] [] s') (h' : s'.Breaks inputs' ts crash) :
    s.Breaks (inputs ++ inputs') ts crash := by
  obtain ⟨steps, hrun, hsubmitted, houtput⟩ := h
  obtain ⟨steps', hrun', rfl, houtput', hlast⟩ := h'
  have hne : steps' ≠ [] := by
    rintro rfl
    cases hlast
  refine ⟨steps ++ steps', fun rest => ?_, ?_, ?_, ?_⟩
  · rw [List.append_assoc, hrun, hrun']
  · rw [List.filterMap_append, hsubmitted, List.nil_append]
  · rw [List.flatMap_append, houtput, houtput', List.append_nil]
  · rw [List.getLast?_append_of_ne_nil _ hne, hlast]

theorem Breaks.append (h : s.Breaks inputs ts crash) (inputs' : List Input) :
    s.Breaks (inputs ++ inputs') ts crash := by
  obtain ⟨steps, hrun, hsteps⟩ := h
  refine ⟨steps, fun rest => ?_, hsteps⟩
  rw [List.append_assoc, hrun]

/-- An input that the shell gets through and goes on after. -/
theorem Smooth.leads {input : Input} (h : s.Smooth input) (hends : s.ends input = false) :
    s.Leads [input] (s.role input).submitted?.toList
      ((s.reply input).writes.map (Effect.output s.destination) ++ input.lineBreak.map .out)
      (s.next input) := by
  have hanswers := h.answers
  obtain ⟨hshell, hstatus⟩ := h.step_of_goesOn hends
  refine ⟨[s.step input], fun rest => ?_, ?_, ?_⟩
  · rw [List.singleton_append, run, hstatus, hshell]
    rfl
  · rw [← hanswers.submitted]
    cases hsubmitted : (s.step input).submitted <;> simp [hsubmitted]
  · rw [List.flatMap_singleton, hanswers.output]

/-! ### Lines -/

variable {t : Text}

/-- A line that nothing is said about. -/
theorem leads_of_quiet {pending : List Text} (hreply : s.reply (.line t) = { session := s.session })
    (hsubmitted : (s.role (.line t)).submitted? = none)
    (hredirect : (s.role (.line t)).isRedirect = false)
    (hpending : (s.role (.line t)).pending s.pending = pending) :
    s.Leads [.line t] [] [] { s with pending := pending } := by
  have hgoesOn : (s.reply (.line t)).goesOn = .ok true := by rw [hreply]
  have hsmooth : s.Smooth (.line t) := by
    refine ⟨⟨true, hgoesOn⟩, by rw [hreply]; exact s.accepts_nil, fun path hpath => ?_⟩
    rw [hpath] at hredirect
    cases hredirect
  have hleads := hsmooth.leads (ends_of_goesOn hgoesOn)
  have hnext : s.next (.line t) = { s with pending := pending } := by
    rw [next, routed_of_not_isRedirect hredirect, hreply, hpending]
    exact wrote_nil _
  rwa [hnext, hsubmitted, hreply] at hleads

theorem leads_of_gather (hrole : s.role (.line t) = .gather t) :
    s.Leads [.line t] [] [] { s with pending := s.pending ++ [t] } := by
  refine leads_of_quiet ?_ ?_ ?_ ?_
  · rw [reply, hrole]; rfl
  · rw [hrole]; rfl
  · rw [hrole]; rfl
  · rw [hrole]; rfl

theorem leads_of_idle (hrole : s.role (.line t) = .idle) : s.Leads [.line t] [] [] s := by
  refine leads_of_quiet ?_ ?_ ?_ ?_
  · rw [reply, hrole]; rfl
  · rw [hrole]; rfl
  · rw [hrole]; rfl
  · rw [hrole]; rfl

/-- Lines that a JSON text goes on with. -/
theorem leads_of_lines {lines : List Text} (hpending : s.pending ≠ [])
    (hlines : ∀ line ∈ lines, line.strip ≠ []) :
    s.Leads (lines.map .line) [] [] { s with pending := s.pending ++ lines } := by
  induction lines generalizing s with
  | nil =>
    rw [List.append_nil]
    exact .refl s
  | cons line lines ih =>
    rw [List.forall_mem_cons] at hlines
    have hfirst := leads_of_gather (role_line_of_not_blank hpending hlines.1)
    have hne : s.pending ++ [line] ≠ [] := by simp
    have hrest := ih (s := { s with pending := s.pending ++ [line] }) hne hlines.2
    have hleads := hfirst.trans hrest
    rwa [List.append_assoc] at hleads

/-- The end of a JSON text that has an output. -/
theorem leads_of_submit {line out : Text} (hrole : s.role (.line line) = .submit t)
    (hout : (s.session.formatText t).value.2 = .ok out)
    (haccepts : s.Accepts [out.withFinalLineFeed]) :
    s.Leads [.line line] [t] [.output s.destination out.withFinalLineFeed]
      { s.wrote [out.withFinalLineFeed] with
        session := (s.session.formatText t).value.1, pending := [] } := by
  have hreply : s.reply (.line line) =
      { session := (s.session.formatText t).value.1
        writes := [out.withFinalLineFeed]
        log := (s.session.formatText t).log } := by
    rw [reply, hrole]
    exact Session.textReply_of_ok hout
  have hgoesOn : (s.reply (.line line)).goesOn = .ok true := by rw [hreply]
  have hsmooth : s.Smooth (.line line) := by
    refine ⟨⟨true, hgoesOn⟩, by rw [hreply]; exact haccepts, fun path hpath => ?_⟩
    rw [hrole] at hpath
    cases hpath
  have hleads := hsmooth.leads (ends_of_goesOn hgoesOn)
  have hnext : s.next (.line line) =
      { s.wrote [out.withFinalLineFeed] with
        session := (s.session.formatText t).value.1, pending := [] } := by
    rw [next, hreply, hrole]
    rfl
  rwa [hnext, hrole, hreply] at hleads

/-- The end of a JSON text that crashes. -/
theorem breaks_of_submit {line : Text} (hrole : s.role (.line line) = .submit t)
    (hcrash : (s.session.formatText t).value.2 = .error crash) :
    s.Breaks [.line line] [t] crash := by
  have hreply : s.reply (.line line) =
      { session := (s.session.formatText t).value.1
        goesOn := .error crash
        log := (s.session.formatText t).log } := by
    rw [reply, hrole]
    exact Session.textReply_of_error hcrash
  obtain ⟨hstatus, hsubmitted, houtput⟩ :=
    step_of_error (s := s) (by rw [hreply]) (by rw [hreply])
  rw [hrole] at hsubmitted
  refine ⟨[s.step (.line line)], fun rest => ?_, ?_, ?_, ?_⟩
  · rw [List.singleton_append, run, hstatus]
  · rw [List.filterMap_cons_some hsubmitted]
    rfl
  · rw [List.flatMap_singleton, houtput]
  · rw [List.getLast?_singleton, Option.map_some, hstatus]

end Shell

/-! ### Pasting -/

/-- The lines of a text as inputs, and a blank line after them. -/
def Text.pasted (t blank : Text) : List Input := (t.splitLines ++ [blank]).map .line

/-- What is submitted of a text that is pasted: without the blanks around it if it is on one
line. -/
def Text.submission (t : Text) : Text := if t.splitLines.length = 1 then t.strip else t

theorem readText_submission {t : Text} {j : Json} (h : readText t = .ok j) :
    readText t.submission = .ok j := by
  rw [submission]
  split
  · exact readText_strip h
  · exact h

namespace Shell

variable {s : Shell} {t blank : Text} {j : Json}

/-- A JSON text that is pasted comes to its submission, after lines that nothing is said about and
before blank ones. -/
theorem exists_submit_of_paste (hpending : s.pending = []) (ht : readText t = .ok j)
    (hlines : ∀ line ∈ t.splitLines, line.strip ≠ []) (hblank : blank.strip = []) :
    ∃ before line after pending, t.pasted blank = before ++ .line line :: after ∧
      s.Leads before [] [] { s with pending } ∧
      role { s with pending } (.line line) = .submit t.submission ∧
      ∀ s' : Shell, s'.pending = [] → s'.Leads after [] [] s' := by
  obtain ⟨line, lines, h⟩ := exists_splitLines t
  have hlines' := hlines
  rw [h, List.forall_mem_cons] at hlines'
  have hfresh := Role.ofFreshLine_of_not_isCommand hlines'.1 (isCommand_firstLine ht h hlines'.1)
  rcases eq_or_ne lines [] with rfl | hne
  · -- the only line is complete, and the blank one is passed over
    obtain rfl : t = line := (eq_append_of_splitLines h).trans (List.append_nil line)
    rw [readText_strip ht] at hfresh
    refine ⟨[], t, [.line blank], [], ?_, ?_, ?_, fun s' hs' => ?_⟩
    · rw [pasted, h]
      rfl
    · have hself : { s with pending := [] } = s := by rw [← hpending]
      rw [hself]
      exact .refl s
    · rw [role_line_of_nil rfl, hfresh, submission, h]
      rfl
    · exact leads_of_idle ((role_line_of_nil hs' blank).trans (Role.ofFreshLine_of_blank hblank))
  · -- the lines are gathered, and the blank one ends the text
    obtain ⟨e, he⟩ := readText_firstLine ht h hne hlines'.2
    rw [he] at hfresh
    refine ⟨t.splitLines.map .line, blank, [], t.splitLines, ?_, ?_, ?_, fun s' _ => .refl s'⟩
    · rw [pasted, List.map_append]
      rfl
    · have hfirst := leads_of_gather ((role_line_of_nil hpending line).trans hfresh)
      rw [hpending, List.nil_append] at hfirst
      rw [h]
      exact hfirst.trans (leads_of_lines (List.cons_ne_nil line []) hlines'.2)
    · have hgather : t.splitLines ≠ [] := by
        rw [h]
        exact List.cons_ne_nil line lines
      have hmany : t.splitLines.length ≠ 1 := by
        rw [h, List.length_cons, Ne, Nat.add_eq_right, List.length_eq_zero_iff]
        exact hne
      rw [role_line_of_blank hgather hblank, gathered, join_splitLines, submission, if_neg hmany]

/-- **Pasting a text is formatting it.**  The text is submitted once, its output is written once,
nothing is pending then, and the history grows unless the output is a message.  If formatting
crashes, so does the shell, before it writes anything. -/
theorem paste_formats (hpending : s.pending = []) (ht : readText t = .ok j)
    (hlines : ∀ line ∈ t.splitLines, line.strip ≠ []) (hblank : blank.strip = [])
    (hclean : ∀ out, (s.session.formatText t).value.2 = .ok out → s.redirect ≠ none →
      ∀ c ∈ out, c.isSurrogate = false) :
    (∃ out session, (s.session.formatText t).value.2 = .ok out ∧
      (s.session.formatText t.submission).value = (session, .ok out) ∧
      s.Leads (t.pasted blank) [t.submission] [.output s.destination out.withFinalLineFeed]
        { s.wrote [out.withFinalLineFeed] with session, pending := [] } ∧
      session.history = if out.startsWith errorLead then s.session.history
        else s.session.history ++ [t.submission]) ∨
    ∃ crash, (s.session.formatText t).value.2 = .error crash ∧
      s.Breaks (t.pasted blank) [t.submission] crash := by
  obtain ⟨before, line, after, pending, hpasted, hbefore, hrole, hafter⟩ :=
    exists_submit_of_paste hpending ht hlines hblank
  have hread := readText_submission ht
  rw [Session.formatText_output ht] at hclean ⊢
  rw [hpasted, List.append_cons]
  cases hout : s.session.outputOf j with
  | ok out =>
    have hresult := (Session.formatText_output hread).trans hout
    refine .inl ⟨out, (s.session.formatText t.submission).value.1, rfl, Prod.ext rfl hresult, ?_,
      Session.formatText_history hread hout⟩
    have haccepts : s.Accepts [out.withFinalLineFeed] := by
      intro hredirect c hc
      rw [List.flatten_singleton] at hc
      rcases mem_withFinalLineFeed_iff.mp hc with hc | rfl
      · exact hclean out hout hredirect c hc
      · rfl
    have hsubmit := leads_of_submit hrole hresult haccepts
    exact (hbefore.trans hsubmit).trans (hafter _ rfl)
  | error crash =>
    refine .inr ⟨crash, rfl, ?_⟩
    have hsubmit := breaks_of_submit hrole ((Session.formatText_output hread).trans hout)
    exact (hbefore.breaks hsubmit).append after

/-- A text over two lines, while output goes to a file. -/
theorem paste_formats_two_lines :
    let s : Shell := ⟨⟨{}, ["0"], none, none⟩, {}, [], some ⟨[[0x61]], []⟩⟩
    ∃ session, s.Leads [.line "[1,", .line " 2]", .line " "] ["[1,\n 2]"]
        [.file [[0x61]] "[\n  1,\n  2\n]\n"]
        { s.wrote ["[\n  1,\n  2\n]\n"] with session, pending := [] } ∧
      session.history = ["0", "[1,\n 2]"] := by
  intro s
  have hread : readText "[1,\n 2]" = .ok (.array [.number (.int 1), .number (.int 2)]) := by
    decide +kernel
  have hresult : (s.session.formatText "[1,\n 2]").value.2 = .ok "[\n  1,\n  2\n]\n" := by
    decide +kernel
  have hclean : ∀ out, (s.session.formatText "[1,\n 2]").value.2 = .ok out →
      s.redirect ≠ none → ∀ c ∈ out, c.isSurrogate = false := by
    intro out hout _
    obtain rfl := Except.ok.inj (hresult.symm.trans hout)
    decide
  rcases paste_formats (show s.pending = [] from rfl) hread (by decide)
    (show Text.strip " " = [] by decide) hclean with
    ⟨out, session, hout, -, hleads, hhistory⟩ | ⟨crash, hcrash, -⟩
  · obtain rfl := Except.ok.inj (hresult.symm.trans hout)
    exact ⟨session, hleads, hhistory⟩
  · rw [hresult] at hcrash
    cases hcrash

/-- Nothing is written for an empty array that is pasted if its level is too wide. -/
theorem not_leads_of_wide_indent :
    ¬ ∀ (s : Shell) (t blank : Text) (j : Json), s.pending = [] → s.redirect = none →
      readText t = .ok j → (∀ line ∈ t.splitLines, line.strip ≠ []) → blank.strip = [] →
      ∃ out s', s.Leads (t.pasted blank) [t.submission]
        [.output s.destination (Text.withFinalLineFeed out)] s' := by
  intro h
  have hread : readText "[]" = .ok (.array []) := by decide +kernel
  obtain ⟨out, s', steps, hrun, -, houtput⟩ :=
    h ⟨{ options := ⟨2 ^ 63, false, false⟩ }, {}, [], none⟩ "[]" [] _ rfl rfl hread (by decide) rfl
  have hnothing : (Shell.run ⟨{ options := ⟨2 ^ 63, false, false⟩ }, {}, [], none⟩
      (Text.pasted "[]" [] ++ [])).flatMap (fun step => step.effects.filter Effect.isOutput)
      = [] := by
    decide +kernel
  rw [hrun, List.flatMap_append, houtput] at hnothing
  cases hnothing

end Shell

end JsonLayout
