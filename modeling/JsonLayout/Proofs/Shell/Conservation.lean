import JsonLayout.Proofs.Shell.Run

/-!
# No line is lost

The shell gathers the lines of a JSON text and submits them together.  On the way no line is lost,
none is submitted twice and none changes its place: what a run submits, cut into lines again, is the
lines of JSON texts that it reads, less those that an interrupt drops.

## Main definitions

* `LineKind`, `Moment.kind`: what becomes of a line.
* `jsonLines`: the lines of a run that belong to a submitted JSON text.

## Main results

* `Shell.submitted_lines_eq`: a run submits just these lines.

## Implementation notes

A line that goes on may still be dropped later, so its kind depends on the moments after it.  The
invariant of the induction counts the lines that are pending at the beginning of a trace to the
lines that are read along it, unless they are going to be dropped.
-/

namespace JsonLayout

open Text

/-! ### What becomes of a line -/

/-- What becomes of a line. -/
inductive LineKind where
  /-- It holds nothing but blanks. -/
  | blank
  /-- It is handled as a command. -/
  | command
  /-- It is a JSON text. -/
  | complete
  /-- It is part of a JSON text that goes over lines. -/
  | gathered
  /-- It is pending when an interrupt arrives. -/
  | discarded
deriving DecidableEq

/-- A line as part of a submitted JSON text, if it is one. -/
def LineKind.json? (t : Text) : LineKind → Option Text
  | .complete => some t.strip
  | .gathered => some t
  | .blank | .command | .discarded => none

/-- Whether lines that are pending stay so until an interrupt arrives. -/
def dropped : List Moment → Bool
  | [] => false
  | m :: later => m.shell.pending ≠ [] && (m.input = .interrupt || dropped later)

/-- What becomes of a line that is met in a moment, given the moments after it. -/
def Moment.kind (m : Moment) (later : List Moment) (t : Text) : LineKind :=
  if t.strip = [] then .blank
  else if m.shell.pending = [] ∧ Shell.isCommand t.strip then .command
  else if m.shell.pending = [] ∧ (readText t.strip).isOk then .complete
  else if dropped later then .discarded
  else .gathered

/-- The part of a submitted JSON text that is read in a moment, if there is one. -/
def Moment.jsonLine? (m : Moment) (later : List Moment) : Option Text :=
  match m.input with
  | .line t => (m.kind later t).json? t
  | .interrupt | .endOfInput => none

/-- The lines of moments that belong to a submitted JSON text, in order. -/
def jsonLines : List Moment → List Text
  | [] => []
  | m :: later => (m.jsonLine? later).toList ++ jsonLines later

/-- Lines that are pending, unless they are going to be dropped. -/
def kept (pending : List Text) (later : List Moment) : List Text :=
  if dropped later then [] else pending

theorem kept_nil (later : List Moment) : kept [] later = [] := ite_self _

theorem kept_of_not_dropped {later : List Moment} (h : dropped later = false)
    (pending : List Text) : kept pending later = pending := by
  rw [kept, h]
  rfl

theorem kept_append (lines lines' : List Text) (later : List Moment) :
    kept (lines ++ lines') later = kept lines later ++ kept lines' later := by
  rw [kept, kept, kept]
  split <;> rfl

/-! ### Steps -/

namespace Shell

variable {s : Shell} {input : Input} {later : List Moment} {t : Text}

/-- Lines that are pending at a moment without an interrupt are dropped later or not at all. -/
theorem kept_cons (hinput : input ≠ .interrupt) :
    kept s.pending (⟨s, input⟩ :: later) = kept s.pending later := by
  by_cases hnone : s.pending = []
  · rw [hnone, kept_nil, kept_nil]
  · simp [kept, dropped, hnone, hinput]

theorem jsonLine?_of_blank (hblank : t.strip = []) :
    Moment.jsonLine? ⟨s, .line t⟩ later = none := by
  simp only [Moment.jsonLine?, Moment.kind, if_pos hblank, LineKind.json?]

/-- A line of a JSON text that goes on. -/
theorem jsonLine?_of_pending (hblank : t.strip ≠ []) (hpending : s.pending ≠ []) :
    (Moment.jsonLine? ⟨s, .line t⟩ later).toList = kept [t] later := by
  simp only [Moment.jsonLine?, Moment.kind, hblank, hpending, false_and, if_false, kept]
  split <;> rfl

/-- The lines that a line submits or leaves pending while nothing is pending before it. -/
theorem submitted_lines_freshLine (hnone : s.pending = []) (hline : CodePoint.lineFeed ∉ t) :
    (Role.ofFreshLine t).submitted?.toList.flatMap splitLines
        ++ kept ((Role.ofFreshLine t).pending []) later
      = (Moment.jsonLine? ⟨s, .line t⟩ later).toList := by
  by_cases hblank : t.strip = []
  · rw [Role.ofFreshLine_of_blank hblank, jsonLine?_of_blank hblank]
    exact kept_nil later
  cases hcommand : isCommand t.strip with
  | true =>
    have hkind : Moment.jsonLine? ⟨s, .line t⟩ later = none := by
      simp [Moment.jsonLine?, Moment.kind, hblank, hnone, hcommand, LineKind.json?]
    rw [hkind]
    obtain hrole | ⟨path, hrole⟩ := Role.ofFreshLine_of_isCommand hblank hcommand <;>
      rw [hrole] <;> exact kept_nil later
  | false =>
    rw [Role.ofFreshLine_of_not_isCommand hblank hcommand]
    cases hread : readText t.strip with
    | ok j =>
      have hstrip : CodePoint.lineFeed ∉ t.strip := mt mem_of_mem_strip hline
      simp [Role.submitted?, Role.pending, Moment.jsonLine?, Moment.kind, hblank, hnone, hcommand,
        hread, LineKind.json?, kept_nil, splitLines_of_not_mem hstrip, Except.isOk, Except.toBool]
    | error e =>
      simp only [Role.submitted?, Role.pending, Moment.jsonLine?, Moment.kind, hblank, hnone,
        hcommand, hread, Except.isOk, Except.toBool, if_false, and_false, Bool.false_eq_true]
      rw [kept]
      split <;> rfl

/-- **The invariant.**  The lines that a moment submits or leaves to be submitted are those that
were there to be submitted before it, and the one that it reads. -/
theorem submitted_lines_step (hpending : ∀ line ∈ s.pending, CodePoint.lineFeed ∉ line)
    (hline : ∀ t, input = .line t → CodePoint.lineFeed ∉ t)
    (hlater : (s.next input).pending = [] → dropped later = false) :
    (s.role input).submitted?.toList.flatMap splitLines ++ kept (s.next input).pending later
      = kept s.pending (⟨s, input⟩ :: later) ++ (Moment.jsonLine? ⟨s, input⟩ later).toList := by
  have hnext : (s.next input).pending = (s.role input).pending s.pending := rfl
  rw [hnext] at hlater ⊢
  by_cases hnone : s.pending = []
  · rw [hnone, kept_nil, List.nil_append]
    cases input with
    | interrupt => exact kept_nil later
    | endOfInput =>
      rw [role_endOfInput_of_nil hnone]
      exact kept_nil later
    | line t =>
      rw [role_line_of_nil hnone]
      exact submitted_lines_freshLine hnone (hline t rfl)
  · -- what is submitted while lines are pending are these lines
    have hflush : (Role.submit s.gathered).submitted?.toList.flatMap splitLines ++ kept [] later
        = s.pending ++ [] := by
      rw [kept_nil]
      exact congrArg (· ++ []) ((List.flatMap_singleton ..).trans (splitLines_join hnone hpending))
    cases input with
    | interrupt =>
      have hdropped : kept s.pending (⟨s, .interrupt⟩ :: later) = [] := by
        simp [kept, dropped, hnone]
      rw [hdropped]
      exact kept_nil later
    | endOfInput =>
      rw [role_endOfInput hnone] at hlater ⊢
      rw [kept_cons Input.noConfusion, kept_of_not_dropped (hlater rfl) s.pending]
      exact hflush
    | line t =>
      by_cases hblank : t.strip = []
      · have hkind : Moment.jsonLine? ⟨s, .line t⟩ later = none := jsonLine?_of_blank hblank
        rw [role_line_of_blank hnone hblank] at hlater ⊢
        rw [kept_cons Input.noConfusion, kept_of_not_dropped (hlater rfl) s.pending,
          hkind]
        exact hflush
      · rw [role_line_of_not_blank hnone hblank, kept_cons Input.noConfusion,
          jsonLine?_of_pending hblank hnone]
        exact kept_append s.pending [t] later

/-- Nothing is pending once the shell has ended. -/
theorem pending_of_ends (h : s.ends input = true) : (s.next input).pending = [] := by
  show (s.role input).pending s.pending = []
  cases hrole : s.role input with
  | drop => rfl
  | submit t => rfl
  | gather t =>
    obtain rfl := eq_line_of_gather hrole
    have hgoesOn : (s.reply (.line t)).goesOn = .ok true := by rw [reply, hrole]; rfl
    rw [ends_of_goesOn hgoesOn] at h
    cases h
  | _ =>
    by_contra hpending
    have hparts := role_of_pending hpending input
    rw [hrole] at hparts
    simp at hparts

/-- Lines without line feeds are pending if such lines are read. -/
theorem lineFeed_not_mem_next (hpending : ∀ line ∈ s.pending, CodePoint.lineFeed ∉ line)
    (hline : ∀ t, input = .line t → CodePoint.lineFeed ∉ t) :
    ∀ line ∈ (s.next input).pending, CodePoint.lineFeed ∉ line := by
  show ∀ line ∈ (s.role input).pending s.pending, CodePoint.lineFeed ∉ line
  cases hrole : s.role input with
  | drop => exact List.forall_mem_nil _
  | submit t => exact List.forall_mem_nil _
  | gather t =>
    refine List.forall_mem_append.mpr ⟨hpending, ?_⟩
    exact List.forall_mem_singleton.mpr (hline t (eq_line_of_gather hrole))
  | _ => exact hpending

end Shell

/-! ### Runs -/

namespace Trace

variable {s s' : Shell} {ms : List Moment}

/-- What is not pending is not dropped. -/
theorem dropped_eq_false (h : Trace s ms s') (hnone : s.pending = []) : dropped ms = false := by
  cases h <;> simp [dropped, hnone]

theorem pending_eq_nil (h : Trace s ms s') : s'.pending = [] := by
  induction h with
  | last smooth ends =>
    rw [Shell.close_pending]
    exact Shell.pending_of_ends ends
  | cons _ _ _ ih => exact ih

/-- What a trace submits are the lines that are pending at its beginning, unless they are dropped,
and the lines of JSON texts that it reads. -/
theorem submitted_lines (h : Trace s ms s')
    (hpending : ∀ line ∈ s.pending, CodePoint.lineFeed ∉ line)
    (hlines : ∀ m ∈ ms, ∀ t, m.input = .line t → CodePoint.lineFeed ∉ t) :
    ms.flatMap (fun m => m.role.submitted?.toList.flatMap splitLines)
      = kept s.pending ms ++ jsonLines ms := by
  induction h with
  | @last s input smooth ends =>
    have hline := hlines _ List.mem_cons_self
    have hnone : dropped [] = false := rfl
    have hstep := Shell.submitted_lines_step hpending hline fun _ => hnone
    rw [Shell.pending_of_ends ends, kept_nil, List.append_nil] at hstep
    rw [List.flatMap_singleton, jsonLines, jsonLines, List.append_nil]
    exact hstep
  | @cons s s' input ms smooth ends rest ih =>
    rw [List.forall_mem_cons] at hlines
    have hstep := Shell.submitted_lines_step hpending hlines.1 rest.dropped_eq_false
    have hrest := ih (Shell.lineFeed_not_mem_next hpending hlines.1) hlines.2
    calc (Moment.role ⟨s, input⟩).submitted?.toList.flatMap splitLines
          ++ ms.flatMap (fun m => m.role.submitted?.toList.flatMap splitLines)
        = (s.role input).submitted?.toList.flatMap splitLines
            ++ kept (s.next input).pending ms ++ jsonLines ms := by
          rw [hrest, List.append_assoc]
          rfl
      _ = kept s.pending (⟨s, input⟩ :: ms) ++ jsonLines (⟨s, input⟩ :: ms) := by
          rw [hstep, List.append_assoc]
          rfl

end Trace

/-- **No line is lost**, submitted twice or moved.  The texts that a run without a crash submits
are, in lines, the lines of JSON texts that it reads; nothing is pending when it ends.  What is
submitted is formatted, and an interrupt leaves the session as it is. -/
theorem Shell.submitted_lines_eq {s : Shell} {inputs : List Input} (hpending : s.pending = [])
    (hlines : ∀ t, .line t ∈ inputs → CodePoint.lineFeed ∉ t) (h : s.Completes inputs) :
    ((s.run inputs).filterMap Step.submitted).flatMap splitLines = jsonLines (s.moments inputs) ∧
      ((s.moments inputs).map Moment.input).IsPrefix (inputs ++ [.endOfInput]) ∧
      (∃ step, (s.run inputs).getLast? = some step ∧ step.status = .finished ∧
        step.shell.pending = []) ∧
      (∀ m ∈ s.moments inputs, ∀ t, m.step.submitted = some t →
        m.step.shell.session = (m.shell.session.formatText t).value.1) ∧
      ∀ m ∈ s.moments inputs, m.input = .interrupt → m.step.shell.session = m.shell.session := by
  obtain ⟨s', htrace⟩ := h.trace
  have hanswers : ∀ m ∈ s.moments inputs, m.shell.Answers m.input :=
    fun m hm => (htrace.smooth m hm).answers
  refine ⟨?_, s.moments_input_isPrefix inputs, ?_, ?_, ?_⟩
  · have hread : ∀ m ∈ s.moments inputs, ∀ t, m.input = .line t → CodePoint.lineFeed ∉ t := by
      intro m hm t ht
      have hmem : m.input ∈ inputs ++ [.endOfInput] :=
        (s.moments_input_isPrefix inputs).subset (List.mem_map_of_mem hm)
      rw [ht, List.mem_append] at hmem
      refine hlines t (hmem.resolve_right ?_)
      simp
    have hnone : ∀ line ∈ s.pending, CodePoint.lineFeed ∉ line := by
      rw [hpending]
      exact List.forall_mem_nil _
    have hsubmitted := htrace.submitted_lines hnone hread
    rw [hpending, kept_nil, List.nil_append] at hsubmitted
    rw [run_eq_map_moments, List.filterMap_map, List.filterMap_eq_flatMap_toList,
      List.flatMap_assoc, ← hsubmitted]
    refine List.flatMap_congr fun m hm => ?_
    exact congrArg (fun u => u.toList.flatMap splitLines) (hanswers m hm).submitted
  · obtain ⟨step, hlast, hshell, hstatus⟩ := htrace.getLast?_steps
    refine ⟨step, by rw [run_eq_map_moments, hlast], hstatus, ?_⟩
    rw [hshell]
    exact htrace.pending_eq_nil
  · intro m hm t ht
    have hrole : m.role.submitted? = some t := (hanswers m hm).submitted.symm.trans ht
    have hsubmit : m.role = .submit t := Role.eq_submit_of_submitted? hrole
    have hreply : m.reply = m.shell.session.textReply t :=
      congrArg (m.shell.session.reply m.shell.files) hsubmit
    calc m.step.shell.session = m.reply.session := (hanswers m hm).session
      _ = (m.shell.session.formatText t).value.1 := by rw [hreply, Session.textReply_session]
  · rintro ⟨s, input⟩ hm rfl
    exact (hanswers _ hm).session

/-- A text over two lines, one that an interrupt drops, a command and a text on its own line. -/
theorem submitted_lines_two_texts :
    ((Shell.run ⟨⟨{}, [], none, none⟩, {}, [], none⟩ [.line "[1,", .line " 2]", .line "",
      .line "[", .interrupt, .line ":history", .line " 3 "]).filterMap
        Step.submitted).flatMap splitLines = ["[1,", " 2]", "3"] := by
  have hlines : ∀ t, Input.line t ∈ [Input.line "[1,", .line " 2]", .line "", .line "[",
      .interrupt, .line ":history", .line " 3 "] → CodePoint.lineFeed ∉ t := by
    intro t ht
    simp only [List.mem_cons, Input.line.injEq, reduceCtorEq, false_or, List.not_mem_nil,
      or_false] at ht
    rcases ht with rfl | rfl | rfl | rfl | rfl | rfl <;> decide
  exact (Shell.submitted_lines_eq rfl hlines (by decide +kernel)).1.trans (by decide +kernel)

end JsonLayout
