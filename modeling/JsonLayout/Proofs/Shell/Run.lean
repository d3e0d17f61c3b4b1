import JsonLayout.Proofs.Shell.Step

/-!
# Runs of the shell

A run is a sequence of moments, in each of which the shell meets an input.  A run without a crash is
a trace: each moment passes the shell after it on to the next one, and the last moment ends the
shell.  What holds along a run is proved along its trace.

## Main definitions

* `Moment`, `Shell.moments`: the moments of a run.
* `Shell.Completes`: a run without a crash.
* `Trace`: moments that follow from each other up to the end of the shell.

## Main results

* `Shell.run_eq_map_moments`: a run is the steps of its moments.
* `Shell.Completes.trace`: the moments of a run without a crash are a trace.
-/

namespace JsonLayout

/-- Whether a status is a crash. -/
def Status.isCrashed : Status → Bool
  | .crashed _ => true
  | _ => false

/-- A moment of a run: the shell, and the input that it meets. -/
structure Moment where
  shell : Shell
  input : Input
deriving DecidableEq

namespace Moment

/-- The step that is made in a moment. -/
def step (m : Moment) : Step := m.shell.step m.input

/-- The part that the input plays in a moment. -/
def role (m : Moment) : Role := m.shell.role m.input

/-- What the session makes of the input in a moment. -/
def reply (m : Moment) : Session.LineResult := m.shell.reply m.input

end Moment

namespace Shell

variable {s : Shell} {input : Input} {inputs : List Input}

/-! ### Moments -/

/-- The moments of a run. -/
def moments (s : Shell) : List Input → List Moment
  | [] => [⟨s, .endOfInput⟩]
  | input :: inputs =>
    match (s.step input).status with
    | .running => ⟨s, input⟩ :: moments (s.step input).shell inputs
    | _ => [⟨s, input⟩]

theorem moments_of_running (h : (s.step input).status = .running) (inputs : List Input) :
    s.moments (input :: inputs) = ⟨s, input⟩ :: (s.step input).shell.moments inputs := by
  rw [moments, h]

theorem moments_of_not_running (h : (s.step input).status ≠ .running) (inputs : List Input) :
    s.moments (input :: inputs) = [⟨s, input⟩] := by
  rw [moments]
  split
  · next hrunning => exact absurd hrunning h
  · rfl

theorem moments_of_finished (h : (s.step input).status = .finished) (inputs : List Input) :
    s.moments (input :: inputs) = [⟨s, input⟩] :=
  moments_of_not_running (by rw [h]; exact Status.noConfusion) inputs

theorem first_mem_moments (s : Shell) (input : Input) (inputs : List Input) :
    ⟨s, input⟩ ∈ s.moments (input :: inputs) := by
  by_cases hrunning : (s.step input).status = .running
  · rw [moments_of_running hrunning]
    exact List.mem_cons_self
  · rw [moments_of_not_running hrunning]
    exact List.mem_cons_self

/-- A run is the steps of its moments. -/
theorem run_eq_map_moments (s : Shell) (inputs : List Input) :
    s.run inputs = (s.moments inputs).map Moment.step := by
  induction inputs generalizing s with
  | nil => rfl
  | cons input inputs ih =>
    rw [run]
    split
    · next hrunning => rw [moments_of_running hrunning, List.map_cons, ih]; rfl
    · next hended => rw [moments_of_not_running hended]; rfl

/-- The inputs that are met are the first ones, with the end of the input after all of them. -/
theorem moments_input_isPrefix (s : Shell) (inputs : List Input) :
    ((s.moments inputs).map Moment.input).IsPrefix (inputs ++ [.endOfInput]) := by
  induction inputs generalizing s with
  | nil => exact List.prefix_rfl
  | cons input inputs ih =>
    by_cases hrunning : (s.step input).status = .running
    · rw [moments_of_running hrunning]
      exact (List.prefix_cons_inj _).mpr (ih _)
    · rw [moments_of_not_running hrunning]
      exact (List.prefix_cons_inj _).mpr List.nil_prefix

/-- A run without a crash. -/
def Completes (s : Shell) (inputs : List Input) : Prop :=
  ∀ step ∈ s.run inputs, step.status.isCrashed = false

instance (s : Shell) (inputs : List Input) : Decidable (s.Completes inputs) :=
  inferInstanceAs (Decidable (∀ step ∈ s.run inputs, step.status.isCrashed = false))

theorem Completes.smooth_moments (h : s.Completes inputs) :
    ∀ m ∈ s.moments inputs, m.shell.Smooth m.input := by
  intro m hm
  have hstep := h m.step (by rw [run_eq_map_moments]; exact List.mem_map_of_mem hm)
  refine smooth_of_not_crashed fun crash hcrash => ?_
  rw [Moment.step, hcrash] at hstep
  cases hstep

end Shell

/-! ### Traces -/

/-- Moments without a crash that follow from each other, from a shell up to its end, and the shell
that is left. -/
inductive Trace : Shell → List Moment → Shell → Prop
  | last {s : Shell} {input : Input} (smooth : s.Smooth input) (ends : s.ends input = true) :
    Trace s [⟨s, input⟩] (s.next input).close
  | cons {s s' : Shell} {input : Input} {ms : List Moment} (smooth : s.Smooth input)
    (ends : s.ends input = false) (rest : Trace (s.next input) ms s') :
    Trace s (⟨s, input⟩ :: ms) s'

theorem Shell.Smooth.step_of_ends {s : Shell} {input : Input} (h : s.Smooth input)
    (hends : s.ends input = true) :
    (s.step input).shell = (s.next input).close ∧ (s.step input).status = .finished := by
  have hshell := h.answers.shell
  have hstatus := h.answers.status
  rw [hends, if_pos rfl] at hshell hstatus
  exact ⟨hshell, hstatus⟩

theorem Shell.Smooth.step_of_goesOn {s : Shell} {input : Input} (h : s.Smooth input)
    (hends : s.ends input = false) :
    (s.step input).shell = s.next input ∧ (s.step input).status = .running := by
  have hshell := h.answers.shell
  have hstatus := h.answers.status
  rw [hends] at hshell hstatus
  exact ⟨hshell, hstatus⟩

theorem Shell.ends_endOfInput (s : Shell) : s.ends .endOfInput = true := rfl

/-- **The moments** of a run without a crash are a trace. -/
theorem Shell.Completes.trace {s : Shell} {inputs : List Input} (h : s.Completes inputs) :
    ∃ s', Trace s (s.moments inputs) s' := by
  have hsmooth := h.smooth_moments
  clear h
  induction inputs generalizing s with
  | nil => exact ⟨_, .last (hsmooth _ List.mem_cons_self) s.ends_endOfInput⟩
  | cons input inputs ih =>
    have hinput : s.Smooth input := hsmooth _ (s.first_mem_moments input inputs)
    cases hends : s.ends input with
    | true =>
      obtain ⟨-, hstatus⟩ := hinput.step_of_ends hends
      rw [moments_of_finished hstatus]
      exact ⟨_, .last hinput hends⟩
    | false =>
      obtain ⟨hshell, hstatus⟩ := hinput.step_of_goesOn hends
      rw [moments_of_running hstatus, hshell] at hsmooth ⊢
      obtain ⟨s', htrace⟩ := ih fun m hm => hsmooth m (List.mem_cons_of_mem _ hm)
      exact ⟨s', .cons hinput hends htrace⟩

namespace Trace

variable {s s' : Shell} {m : Moment} {ms before after : List Moment}

/-- The last step of a trace ends the shell. -/
theorem getLast?_steps (h : Trace s ms s') :
    ∃ step, (ms.map Moment.step).getLast? = some step ∧ step.shell = s' ∧
      step.status = .finished := by
  induction h with
  | @last s input hsmooth hends =>
    obtain ⟨hshell, hstatus⟩ := hsmooth.step_of_ends hends
    exact ⟨s.step input, rfl, hshell, hstatus⟩
  | cons _ _ _ ih =>
    obtain ⟨step, hlast, hstep⟩ := ih
    exact ⟨step, by rw [List.map_cons, List.getLast?_cons, hlast]; rfl, hstep⟩

theorem head (h : Trace s (m :: ms) s') : m.shell = s := by
  cases h <;> rfl

/-- What comes after the first moment is a trace of its own. -/
theorem tail (h : Trace s (m :: ms) s') (hne : ms ≠ []) : Trace (s.next m.input) ms s' := by
  cases h with
  | last smooth ends => exact absurd rfl hne
  | cons smooth ends rest => exact rest

/-- A trace from any of its moments on. -/
theorem suffix (h : Trace s (before ++ m :: after) s') : Trace m.shell (m :: after) s' := by
  induction before generalizing s with
  | nil => exact h.head.symm ▸ h
  | cons _ before ih => exact ih (h.tail (by simp))

theorem smooth (h : Trace s ms s') : ∀ m ∈ ms, m.shell.Smooth m.input := by
  induction h with
  | last hsmooth hends => exact List.forall_mem_singleton.mpr hsmooth
  | cons hsmooth hends _ ih => exact List.forall_mem_cons.mpr ⟨hsmooth, ih⟩

end Trace

end JsonLayout
