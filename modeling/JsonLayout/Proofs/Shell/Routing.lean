import JsonLayout.CommandLine.Run
import JsonLayout.Proofs.Shell.Run

/-!
# Where output goes

A text that the shell emits goes to the file that was opened last, unless output was sent back to
standard output since, or the opening failed.  A file that was opened holds what was emitted from
its last opening to the next command on where output goes, and no other file changes.

## Main definitions

* `Moment.redirect?`: where a command on where output goes sends it.
* `destinationAfter`: where output goes after moments.
* `Shell.transcript`: what a shell leaves on standard output.

## Main results

* `Shell.output_routed`: where the output of a run is, and in which files.

## Implementation notes

A file is emptied when it is opened and filled when it is closed.  In between the shell holds what
was written, so the content of the file is followed through both: `Trace.node?_of_redirect` is about
a file that is open at the beginning of a trace, and `Trace.node?_of_ne` about any other location.
-/

namespace JsonLayout

/-! ### Destinations -/

namespace Moment

/-- The texts that are emitted in a moment. -/
def emitted (m : Moment) : List Text := m.reply.writes

/-- Where output is sent in a moment, if that is what the command in it is about: to the file at a
location, or to standard output. -/
def redirect? (m : Moment) : Option (Option Location) :=
  match m.role with
  | .redirect path => some (path.bind m.shell.opened?)
  | _ => none

end Moment

/-- Where output goes after moments: where the last command about that sent it, and to standard
output if there was none. -/
def destinationAfter (ms : List Moment) : Option Location :=
  (ms.filterMap Moment.redirect?).getLast?.getD none

/-- What a moment leaves on standard output, given where output goes. -/
def Moment.shown (m : Moment) (destination : Option Location) : Text :=
  (if destination = none then m.emitted.flatten else []) ++ m.input.lineBreak.flatten

/-- What a shell leaves on its standard output, if it shows no prompts. -/
def Shell.transcript (s : Shell) (inputs : List Input) : Text :=
  Shell.banner ++ (s.run inputs).flatMap fun step => step.effects.flatMap Effect.toOut

namespace Effect

/-- Only output goes to standard output. -/
theorem flatMap_toOut_filter (effects : List Effect) :
    (effects.filter isOutput).flatMap toOut = effects.flatMap toOut := by
  induction effects with
  | nil => rfl
  | cons effect effects ih =>
    rw [List.filter_cons, List.flatMap_cons, ← ih]
    cases effect <;> rfl

theorem flatMap_toOut_output (destination : Option Location) (ts : List Text) :
    (ts.map (output destination)).flatMap toOut
      = if destination = none then ts.flatten else [] := by
  rw [List.flatMap_map]
  cases destination with
  | none => exact List.flatMap_id
  | some location => simp [output, toOut]

/-- Output that goes to a place, followed by line breaks, as it is seen on standard output. -/
theorem flatMap_toOut_of_filter {effects : List Effect} {destination : Option Location}
    {ts breaks : List Text}
    (h : effects.filter isOutput = ts.map (output destination) ++ breaks.map .out) :
    effects.flatMap toOut = (if destination = none then ts.flatten else []) ++ breaks.flatten := by
  have hbreaks := flatMap_toOut_output none breaks
  rw [if_pos rfl] at hbreaks
  rw [← flatMap_toOut_filter, h, List.flatMap_append, flatMap_toOut_output]
  exact congrArg _ hbreaks

end Effect

/-- A function of the elements of a list may look at what comes before each of them. -/
theorem map_eq_mapIdx_take {α β : Type} {f : α → β} {g : List α → α → β} {as : List α}
    (h : ∀ before a after, as = before ++ a :: after → f a = g before a) :
    as.map f = as.mapIdx fun i a => g (as.take i) a := by
  refine List.ext_getElem ?_ ?_
  · rw [List.length_map, List.length_mapIdx]
  · intro i hi _
    rw [List.length_map] at hi
    rw [List.getElem_map, List.getElem_mapIdx]
    refine h _ _ (as.drop (i + 1)) ?_
    rw [List.getElem_cons_drop, List.take_append_drop]

namespace Shell

variable {s : Shell} {input : Input} {location : Location}

/-- A moment that is not about where output goes: at most, more is written there. -/
theorem next_of_not_redirect (h : Moment.redirect? ⟨s, input⟩ = none) :
    (s.next input).files = s.files ∧
      (s.next input).redirect = s.redirect.map fun r =>
        { r with written := r.written ++ Text.bytes (s.reply input).writes.flatten } := by
  have hrole : (s.role input).isRedirect = false := by
    by_contra hredirect
    obtain ⟨path, hpath⟩ := Role.exists_of_isRedirect (Bool.not_eq_false _ ▸ hredirect)
    simp [Moment.redirect?, Moment.role, hpath] at h
  rw [next, routed_of_not_isRedirect hrole]
  exact ⟨rfl, rfl⟩

/-- A moment that is about where output goes: one file is closed, and another one may be opened. -/
theorem next_of_redirect? {destination : Option Location}
    (h : Moment.redirect? ⟨s, input⟩ = some destination) :
    s.ends input = false ∧
      s.next input = destination.elim s.close fun location =>
        { s.close with files := s.close.files.put location [], redirect := some { location } } := by
  obtain ⟨path, hpath, rfl⟩ : ∃ path, s.role input = .redirect path ∧
      path.bind s.opened? = destination := by
    rw [Moment.redirect?, Moment.role] at h
    split at h
    · next path hpath => exact ⟨path, hpath, Option.some.inj h⟩
    · cases h
  refine ⟨ends_of_redirect hpath, (next_of_redirect hpath).trans ?_⟩
  cases path with
  | none => rfl
  | some path =>
    rw [routed, Option.bind_some]
    cases s.opened? path <;> rfl

theorem ne_nil_of_redirect? (h : Moment.redirect? ⟨s, input⟩ = some (some location)) :
    location ≠ [] := by
  rw [Moment.redirect?, Moment.role] at h
  split at h
  · next path hpath =>
    obtain ⟨path, rfl, hopened⟩ := Option.bind_eq_some_iff.mp (Option.some.inj h)
    rw [opened?] at hopened
    split at hopened
    · cases hopened
    · next bytes hbytes =>
      cases htarget : s.close.files.target bytes with
      | error e => rw [htarget] at hopened; cases hopened
      | ok found =>
        rw [htarget] at hopened
        cases hopened
        exact FileStore.ne_nil_of_target htarget
  · cases h

/-- Where output goes next. -/
theorem next_destination (s : Shell) (input : Input) :
    (s.next input).destination = (Moment.redirect? ⟨s, input⟩).getD s.destination := by
  cases h : Moment.redirect? ⟨s, input⟩ with
  | none =>
    rw [destination, (next_of_not_redirect h).2, Option.map_map]
    rfl
  | some place =>
    rw [destination, (next_of_redirect? h).2]
    cases place with
    | none => rw [Option.elim_none, close_redirect]; rfl
    | some location => rfl

/-- What is at a location that output does not go to stays when the file is closed that it goes
to. -/
theorem node?_close_of_ne (h : s.destination ≠ some location) :
    s.close.files.node? location = s.files.node? location := by
  rw [close]
  cases hr : s.redirect with
  | none => rfl
  | some r =>
    refine FileStore.node?_put_of_ne ?_
    rintro rfl
    exact h (by rw [destination, hr]; rfl)

/-- A file that is closed holds what was written to it. -/
theorem node?_close_of_redirect {written : Bytes} (h : s.redirect = some ⟨location, written⟩)
    (hne : location ≠ []) : s.close.files.node? location = some (.file written) := by
  rw [close, h]
  exact FileStore.node?_put_self hne

/-- What is emitted while a file is open can be written to it. -/
theorem Smooth.contentBytes (h : s.Smooth input) (hredirect : s.redirect ≠ none) :
    contentBytes (s.reply input).writes.flatten
      = .ok (Text.bytes (s.reply input).writes.flatten) :=
  contentBytes_eq_ok_iff.mpr ⟨h.accepts hredirect, rfl⟩

/-- What is at a location that output does not go to, and that is not opened, stays there. -/
theorem next_elsewhere (h : s.destination ≠ some location)
    (hopen : Moment.redirect? ⟨s, input⟩ ≠ some (some location)) :
    (s.next input).destination ≠ some location ∧
      (s.next input).files.node? location = s.files.node? location := by
  rw [next_destination]
  cases hmoment : Moment.redirect? ⟨s, input⟩ with
  | none =>
    rw [(next_of_not_redirect hmoment).1]
    exact ⟨h, rfl⟩
  | some destination =>
    rw [hmoment] at hopen
    refine ⟨fun heq => hopen (congrArg some heq), ?_⟩
    rw [(next_of_redirect? hmoment).2]
    cases destination with
    | none => exact node?_close_of_ne h
    | some opened =>
      have hne : location ≠ opened := by
        rintro rfl
        exact hopen rfl
      exact (FileStore.node?_put_of_ne hne).trans (node?_close_of_ne h)

end Shell

/-! ### Runs -/

namespace Trace

variable {s s' : Shell} {m : Moment} {ms before after : List Moment} {location : Location}

/-- Where output goes in a moment depends on the commands before it. -/
theorem destination_eq (h : Trace s (before ++ m :: after) s') :
    m.shell.destination
      = (before.filterMap Moment.redirect?).getLast?.getD s.destination := by
  induction before generalizing s with
  | nil => rw [h.head]; rfl
  | cons m' before ih =>
    obtain rfl := h.head
    rw [ih (h.tail (by simp)), Shell.next_destination, List.filterMap_cons]
    cases m'.redirect? with
    | none => rfl
    | some destination => rw [List.getLast?_cons]; rfl

/-- What is at a location that output does not go to, and that is not opened, stays there. -/
theorem node?_of_ne (h : Trace s ms s') (hne : s.destination ≠ some location)
    (hms : ∀ m ∈ ms, m.redirect? ≠ some (some location)) :
    s'.files.node? location = s.files.node? location := by
  induction h with
  | @last s input smooth ends =>
    have hfirst := hms _ List.mem_cons_self
    obtain ⟨hdestination, hfiles⟩ := Shell.next_elsewhere hne hfirst
    rw [Shell.node?_close_of_ne hdestination, hfiles]
  | @cons s s' input ms smooth ends rest ih =>
    rw [List.forall_mem_cons] at hms
    obtain ⟨hdestination, hfiles⟩ := Shell.next_elsewhere hne hms.1
    rw [ih hdestination hms.2, hfiles]

/-- A file that output goes to holds in the end what is emitted up to the next command on where
output goes. -/
theorem node?_of_redirect {written : Bytes} (h : Trace s ms s')
    (hredirect : s.redirect = some ⟨location, written⟩) (hne : location ≠ [])
    (hms : ∀ m ∈ ms, m.redirect? ≠ some (some location)) :
    ∃ bytes, contentBytes ((ms.takeWhile fun m => m.redirect?.isNone).flatMap
        Moment.emitted).flatten = .ok bytes ∧
      s'.files.node? location = some (.file (written ++ bytes)) := by
  induction h generalizing written with
  | @last s input smooth ends =>
    cases hmoment : Moment.redirect? ⟨s, input⟩ with
    | none =>
      have hnext := (Shell.next_of_not_redirect hmoment).2
      rw [hredirect] at hnext
      have hcontent := smooth.contentBytes (by simp [hredirect])
      refine ⟨_, ?_, Shell.node?_close_of_redirect hnext hne⟩
      rw [List.takeWhile_cons_of_pos (by rw [hmoment]; rfl)]
      simpa [Moment.emitted, Moment.reply] using hcontent
    | some destination =>
      rw [(Shell.next_of_redirect? hmoment).1] at ends
      cases ends
  | @cons s s' input ms smooth ends rest ih =>
    rw [List.forall_mem_cons] at hms
    cases hmoment : Moment.redirect? ⟨s, input⟩ with
    | none =>
      have hnext := (Shell.next_of_not_redirect hmoment).2
      rw [hredirect] at hnext
      have hcontent := smooth.contentBytes (by simp [hredirect])
      obtain ⟨bytes, hbytes, hnode⟩ := ih hnext hms.2
      refine ⟨_, ?_, hnode.trans (by rw [List.append_assoc])⟩
      rw [List.takeWhile_cons_of_pos (by rw [hmoment]; rfl), List.flatMap_cons,
        List.flatten_append]
      exact contentBytes_append hcontent hbytes
    | some destination =>
      -- the file is closed, and no later moment touches it
      have hopen := hms.1
      rw [hmoment] at hopen
      refine ⟨[], by rw [List.takeWhile_cons_of_neg (by rw [hmoment]; simp)]; rfl, ?_⟩
      have hdestination : (s.next input).destination ≠ some location := by
        rw [Shell.next_destination, hmoment]
        exact fun heq => hopen (congrArg some heq)
      rw [rest.node?_of_ne hdestination hms.2, (Shell.next_of_redirect? hmoment).2,
        List.append_nil]
      have hclosed := Shell.node?_close_of_redirect hredirect hne
      cases destination with
      | none => exact hclosed
      | some opened =>
        have hother : location ≠ opened := by
          rintro rfl
          exact hopen rfl
        exact (FileStore.node?_put_of_ne hother).trans hclosed

/-- **A file that is opened** for the last time holds in the end what is emitted up to the next
command on where output goes. -/
theorem node?_of_opening (h : Trace s (before ++ m :: after) s')
    (hopen : m.redirect? = some (some location))
    (hafter : ∀ later ∈ after, later.redirect? ≠ some (some location)) :
    ∃ bytes, contentBytes ((after.takeWhile fun later => later.redirect?.isNone).flatMap
        Moment.emitted).flatten = .ok bytes ∧
      s'.files.node? location = some (.file bytes) := by
  obtain ⟨t, input⟩ := m
  obtain ⟨hends, hnext⟩ := Shell.next_of_redirect? hopen
  cases h.suffix with
  | last smooth ends =>
    rw [hends] at ends
    cases ends
  | cons smooth ends rest =>
    have hopened : (t.next input).redirect = some ⟨location, []⟩ := by
      rw [hnext]
      rfl
    exact rest.node?_of_redirect hopened (Shell.ne_nil_of_redirect? hopen) hafter

/-- Output goes where the last command before it sent it. -/
theorem output_eq (h : Trace s (before ++ m :: after) s') (hnone : s.destination = none) :
    m.step.effects.filter Effect.isOutput
      = m.emitted.map (Effect.output (destinationAfter before)) ++ m.input.lineBreak.map .out := by
  have hsmooth := h.smooth m (List.mem_append_right before List.mem_cons_self)
  have hdestination : m.shell.destination = destinationAfter before := by
    rw [h.destination_eq, hnone, destinationAfter]
  rw [← hdestination]
  exact hsmooth.answers.output

end Trace

/-- **Output** goes to one place.  Along a run without a crash that begins with standard output,

* what is emitted in a moment goes where the last command before it sent output,
* a file holds what was emitted from its last opening to the next such command,
* what is at a location that is not opened stays there, and
* standard output shows the banner, what is emitted to it, and the line breaks of interrupts and of
  the end of the input. -/
theorem Shell.output_routed {s : Shell} {inputs : List Input} (hredirect : s.redirect = none)
    (h : s.Completes inputs) :
    (∀ before m after, s.moments inputs = before ++ m :: after →
      m.step.effects.filter Effect.isOutput
        = m.emitted.map (Effect.output (destinationAfter before)) ++ m.input.lineBreak.map .out) ∧
    (∃ step, (s.run inputs).getLast? = some step ∧
      (∀ before m after location, s.moments inputs = before ++ m :: after →
        m.redirect? = some (some location) →
        (∀ later ∈ after, later.redirect? ≠ some (some location)) →
        ∃ bytes, contentBytes ((after.takeWhile fun later => later.redirect?.isNone).flatMap
            Moment.emitted).flatten = .ok bytes ∧
          step.shell.files.node? location = some (.file bytes)) ∧
      ∀ location, (∀ m ∈ s.moments inputs, m.redirect? ≠ some (some location)) →
        step.shell.files.node? location = s.files.node? location) ∧
    s.transcript inputs = Shell.banner ++
      ((s.moments inputs).mapIdx fun i m =>
        m.shown (destinationAfter ((s.moments inputs).take i))).flatten := by
  obtain ⟨s', htrace⟩ := h.trace
  have hnone : s.destination = none := by rw [destination, hredirect]; rfl
  have houtput : ∀ before m after, s.moments inputs = before ++ m :: after →
      m.step.effects.filter Effect.isOutput
        = m.emitted.map (Effect.output (destinationAfter before))
          ++ m.input.lineBreak.map .out := by
    intro before m after hms
    rw [hms] at htrace
    exact htrace.output_eq hnone
  refine ⟨houtput, ?_, ?_⟩
  · obtain ⟨step, hlast, hshell, -⟩ := htrace.getLast?_steps
    refine ⟨step, by rw [run_eq_map_moments, hlast], ?_, ?_⟩
    · intro before m after location hms hopen hafter
      rw [hms] at htrace
      rw [hshell]
      exact htrace.node?_of_opening hopen hafter
    · intro location hms
      rw [hshell]
      exact htrace.node?_of_ne (by simp [hnone]) hms
  · have hshown : ∀ before m after, s.moments inputs = before ++ m :: after →
        m.step.effects.flatMap Effect.toOut = m.shown (destinationAfter before) :=
      fun before m after hms => Effect.flatMap_toOut_of_filter (houtput before m after hms)
    rw [transcript, run_eq_map_moments, List.flatMap_map, List.flatMap_def]
    exact congrArg (fun ts => Shell.banner ++ ts.flatten) (map_eq_mapIdx_take hshown)

/-- Output goes to a file, to standard output because a path cannot be opened, to the same file
again, and back. -/
theorem output_routed_file_opened_twice :
    let s : Shell := ⟨⟨{}, [], none, none⟩, {}, [], none⟩
    let inputs : List Input := [.line "?>> a", .line "1", .line "?>> b/c", .line "2",
      .line "?>> a", .line "4", .line "?>>", .line "3", .interrupt]
    (∃ step, (s.run inputs).getLast? = some step ∧
      step.shell.files.node? [[0x61]] = some (.file [0x34, 0x0A])) ∧
    s.transcript inputs = Shell.banner ++ ("2\n3\n\n\n" : Text) := by
  intro s inputs
  obtain ⟨-, ⟨step, hlast, hfile, -⟩, hout⟩ :=
    Shell.output_routed (show s.redirect = none from rfl)
      (show s.Completes inputs by decide +kernel)
  refine ⟨⟨step, hlast, ?_⟩, hout.trans (by decide +kernel)⟩
  have hopen : ∀ later ∈ (s.moments inputs).drop 5,
      later.redirect? ≠ some (some [[0x61]]) := by decide +kernel
  obtain ⟨bytes, hbytes, hnode⟩ := hfile ((s.moments inputs).take 4)
    ((s.moments inputs).get ⟨4, by decide +kernel⟩) ((s.moments inputs).drop 5) [[0x61]]
    (by decide +kernel) (by decide +kernel) hopen
  have hcontent : contentBytes ((((s.moments inputs).drop 5).takeWhile
      fun later => later.redirect?.isNone).flatMap Moment.emitted).flatten
        = .ok [0x34, 0x0A] := by decide +kernel
  rw [hcontent] at hbytes
  rw [hnode, ← Except.ok.inj hbytes]

end JsonLayout
