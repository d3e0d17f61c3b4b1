import JsonLayout.Proofs.Session.Answers
import JsonLayout.Proofs.Shell.Run

/-!
# How a run of the shell ends

A run of the shell goes on until it is told to quit, while nothing is pending, or until its input
ends.  There are three causes for which it crashes before that: output is sent to no path, the
session has no answer, or a surrogate is written to a file.

## Main definitions

* `Shell.Quits`: the inputs that the shell may end on.
* `Shell.Crashes`: the causes of a crash.
* `Shell.Returns`: a run that ends where it may.

## Main results

* `Shell.smooth_iff`: the shell gets through an input if and only if there is no cause.
* `Shell.returns_iff`: a run ends where it may if and only if there is never one.
-/

namespace JsonLayout

/-! ### What the session is asked for -/

/-- The operation of the session that a part asks for. -/
def Role.operation? (files : FileStore) : Role → Option Operation
  | .submit t => some (.text t)
  | .command line => (Request.line files line).operation?
  | _ => none

/-- The lines that tell a session to quit, without the blanks around them. -/
def Text.IsQuit (line : Text) : Prop := line = (":q" : Text) ∨ line = (":quit" : Text)

/-- Whether a part is a command to quit. -/
def Role.IsQuit : Role → Prop
  | .command line => line.strip.IsQuit
  | _ => False

namespace Session

variable {s : Session} {files : FileStore} {role : Role}

/-- Whether a session goes on after an operation: unless there is a crash. -/
def goesOnAfter (s : Session) (o : Operation) : Except Crash Bool :=
  match (s.perform o).2 with
  | some (.error crash) => .error crash
  | _ => .ok true

theorem goesOnAfter_crash_iff {o : Operation} :
    (∃ crash, s.goesOnAfter o = .error crash) ↔ o.Breaks s.options := by
  rw [← s.perform_crash_iff, goesOnAfter]
  split <;> simp_all

theorem goesOnAfter_ne_false (s : Session) (o : Operation) : s.goesOnAfter o ≠ .ok false := by
  rw [goesOnAfter]
  split <;> simp

theorem textReply_goesOn (s : Session) (t : Text) :
    (s.textReply t).goesOn = s.goesOnAfter (.text t) := by
  rw [textReply, goesOnAfter, perform]
  rcases s.formatText t with ⟨⟨after, crash | out⟩, log⟩ <;> rfl

/-- After a line a session goes on as after the operation that the line asks for. -/
theorem processLine_goesOn (s : Session) (files : FileStore) (line : Text) :
    (line.strip.IsQuit ∧ (Request.line files line).operation? = none ∧
        (s.processLine files line).goesOn = .ok false) ∨
      ¬ line.strip.IsQuit ∧ (s.processLine files line).goesOn =
        ((Request.line files line).operation?.elim (.ok true) s.goesOnAfter) := by
  simp only [processLine, Request.operation?, Text.IsQuit]
  split_ifs with hempty hquit hhistory hreset
  · refine .inr ⟨?_, rfl⟩
    rw [List.isEmpty_iff] at hempty
    rw [hempty]
    rintro (h | h) <;> cases h
  · exact .inl ⟨hquit, rfl, rfl⟩
  · exact .inr ⟨hquit, rfl⟩
  · exact .inr ⟨hquit, rfl⟩
  · refine .inr ⟨hquit, ?_⟩
    cases Text.after? formatFileLead line.strip with
    | some path =>
      dsimp only [Option.elim_some, goesOnAfter, perform]
      rcases s.formatFile files path.strip with ⟨⟨after, crash | out⟩, log⟩ <;> rfl
    | none =>
      dsimp only [Option.elim_some, goesOnAfter, perform]
      rcases s.formatText line.strip with ⟨⟨after, crash | out⟩, log⟩ <;> rfl

/-- **A part** makes the session go on as the operation does that it asks for, but for a command to
quit. -/
theorem reply_goesOn (s : Session) (files : FileStore) (role : Role) :
    (role.IsQuit ∧ role.operation? files = none ∧ (s.reply files role).goesOn = .ok false) ∨
      ¬ role.IsQuit ∧ (s.reply files role).goesOn =
        (role.operation? files).elim (.ok true) s.goesOnAfter := by
  cases role with
  | submit t => exact .inr ⟨id, s.textReply_goesOn t⟩
  | command line => exact s.processLine_goesOn files line
  | _ => exact .inr ⟨id, rfl⟩

/-- A reply crashes if and only if the part asks for an operation that has no answer. -/
theorem reply_crash_iff : (∃ crash, (s.reply files role).goesOn = .error crash) ↔
    ∃ o, role.operation? files = some o ∧ o.Breaks s.options := by
  rcases s.reply_goesOn files role with ⟨-, hnone, hgoesOn⟩ | ⟨-, hgoesOn⟩
  · simp [hnone, hgoesOn]
  · rw [hgoesOn]
    cases role.operation? files with
    | none => simp
    | some o => simp [goesOnAfter_crash_iff]

/-- A reply ends the shell if and only if the part is a command to quit. -/
theorem reply_quits_iff : (s.reply files role).goesOn = .ok false ↔ role.IsQuit := by
  rcases s.reply_goesOn files role with ⟨hquit, -, hgoesOn⟩ | ⟨hquit, hgoesOn⟩
  · exact iff_of_true hgoesOn hquit
  · refine iff_of_false ?_ hquit
    rw [hgoesOn]
    cases role.operation? files with
    | none => simp
    | some o => exact s.goesOnAfter_ne_false o

end Session

namespace Shell

variable {s : Shell} {input : Input} {inputs : List Input}

/-! ### Inputs that the shell may end on -/

/-- Whether the shell may end on an input: it is told to quit while nothing is pending, or the input
is at its end. -/
def Quits (s : Shell) : Input → Prop
  | .line t => s.pending = [] ∧ t.strip.IsQuit
  | .interrupt => False
  | .endOfInput => True

/-- The part of a command to quit is played by just such a line. -/
theorem isQuit_role_iff {t : Text} :
    (s.role (.line t)).IsQuit ↔ s.pending = [] ∧ t.strip.IsQuit := by
  constructor
  · intro h
    cases hrole : s.role (.line t) with
    | command line =>
      -- the command has lost the blanks around the line already
      obtain ⟨hpending, u, ⟨⟩, rfl⟩ := exists_line_of_command hrole
      rw [hrole, Role.IsQuit, Text.strip_strip] at h
      exact ⟨hpending, h⟩
    | _ =>
      rw [hrole] at h
      cases h
  · rintro ⟨hpending, h⟩
    have hrole : s.role (.line t) = .command t.strip := by
      rw [role_line_of_nil hpending, Role.ofFreshLine]
      rcases h with h | h <;> rw [h] <;> rfl
    rw [hrole, Role.IsQuit, Text.strip_strip]
    exact h

/-- **The shell ends** where it may and nowhere else, if it does not crash. -/
theorem Smooth.ends_iff (h : s.Smooth input) : s.ends input = true ↔ s.Quits input := by
  obtain ⟨goesOn, hgoesOn⟩ := h.goesOn
  have hquit : (s.reply input).goesOn = .ok false ↔ (s.role input).IsQuit :=
    Session.reply_quits_iff
  rw [hgoesOn, Except.ok.injEq] at hquit
  rw [ends_of_goesOn hgoesOn]
  cases input with
  | endOfInput => exact iff_of_true rfl trivial
  | interrupt =>
    have hgoes : goesOn = true := Bool.eq_true_of_not_eq_false hquit.mp
    rw [hgoes]
    exact iff_of_false Bool.false_ne_true id
  | line t =>
    rw [Quits, ← isQuit_role_iff, ← hquit]
    simp

/-! ### Causes of a crash -/

/-- **Why the shell crashes** on an input. -/
inductive Crashes (s : Shell) (input : Input) : Prop where
  /-- Output is to go to no path. -/
  | noTarget {path : Text} (role : s.role input = .redirect (some path)) (noPath : path.IsNoPath)
  /-- The session has no answer to what it is asked for. -/
  | noAnswer {o : Operation} (operation : (s.role input).operation? s.files = some o)
      (breaks : o.Breaks s.session.options)
  /-- The output has a surrogate, and it goes to a file. -/
  | surrogate {t : Text} {c : CodePoint} (redirect : s.redirect ≠ none)
      (write : t ∈ (s.reply input).writes) (mem : c ∈ t) (surrogate : c.isSurrogate = true)

/-- **The shell gets through an input** if and only if there is no cause of a crash. -/
theorem smooth_iff : s.Smooth input ↔ ¬ s.Crashes input := by
  have hanswer : (∃ goesOn, (s.reply input).goesOn = .ok goesOn) ↔
      ¬ ∃ o, (s.role input).operation? s.files = some o ∧ o.Breaks s.session.options := by
    rw [← Session.reply_crash_iff, ← reply]
    cases (s.reply input).goesOn <;> simp
  constructor
  · rintro ⟨hgoesOn, haccepts, hpath⟩ (⟨hrole, hno⟩ | ⟨hoperation, hbreaks⟩ |
      ⟨hredirect, hwrite, hmem, hsurrogate⟩)
    · obtain ⟨bytes, hbytes⟩ := hpath _ hrole
      obtain ⟨crash, hcrash⟩ := exists_pathBytes_eq_error_iff.mpr hno
      cases hbytes.symm.trans hcrash
    · exact hanswer.mp hgoesOn ⟨_, hoperation, hbreaks⟩
    · have hclean := haccepts hredirect _ (List.mem_flatten.mpr ⟨_, hwrite, hmem⟩)
      cases hclean.symm.trans hsurrogate
  · intro hnone
    refine ⟨?_, ?_, ?_⟩
    · rw [hanswer]
      rintro ⟨o, hoperation, hbreaks⟩
      exact hnone (.noAnswer hoperation hbreaks)
    · intro hredirect c hc
      obtain ⟨t, ht, hmem⟩ := List.mem_flatten.mp hc
      rw [← Bool.not_eq_true]
      exact fun hsurrogate => hnone (.surrogate hredirect ht hmem hsurrogate)
    · intro path hrole
      cases hbytes : pathBytes path with
      | ok bytes => exact ⟨bytes, rfl⟩
      | error crash =>
        exact absurd (.noTarget hrole (exists_pathBytes_eq_error_iff.mp ⟨crash, hbytes⟩)) hnone

/-! ### Runs -/

/-- **A run returns**: it goes on from every moment but the last one, on which the shell may end and
does.  On the others it may not. -/
def Returns (s : Shell) (inputs : List Input) : Prop :=
  ∃ before last, s.moments inputs = before ++ [last] ∧
    (∀ m ∈ before, m.step.status = .running ∧ ¬ m.shell.Quits m.input) ∧
    last.step.status = .finished ∧ last.shell.Quits last.input

theorem Returns.completes (h : s.Returns inputs) : s.Completes inputs := by
  obtain ⟨before, last, hmoments, hbefore, hlast, -⟩ := h
  intro step hstep
  rw [run_eq_map_moments, hmoments, List.map_append, List.mem_append, List.mem_map,
    List.map_singleton, List.mem_singleton] at hstep
  rcases hstep with ⟨m, hm, rfl⟩ | rfl
  · rw [(hbefore m hm).1]
    rfl
  · rw [hlast]
    rfl

end Shell

/-- A trace goes on until its last moment. -/
theorem Trace.exists_last {s s' : Shell} {ms : List Moment} (h : Trace s ms s') :
    ∃ before last, ms = before ++ [last] ∧
      (∀ m ∈ before, m.step.status = .running ∧ ¬ m.shell.Quits m.input) ∧
      last.step.status = .finished ∧ last.shell.Quits last.input := by
  induction h with
  | @last s input smooth ends =>
    exact ⟨[], ⟨s, input⟩, rfl, List.forall_mem_nil _, (smooth.step_of_ends ends).2,
      smooth.ends_iff.mp ends⟩
  | @cons s s' input ms smooth ends _ ih =>
    obtain ⟨before, last, rfl, hbefore, hlast⟩ := ih
    refine ⟨⟨s, input⟩ :: before, last, rfl, ?_, hlast⟩
    rw [List.forall_mem_cons]
    refine ⟨⟨(smooth.step_of_goesOn ends).2, ?_⟩, hbefore⟩
    rw [← smooth.ends_iff, ends]
    exact Bool.false_ne_true

namespace Shell

/-- **A run of the shell returns** if and only if there is no cause of a crash in any of its
moments. -/
theorem returns_iff (s : Shell) (inputs : List Input) :
    s.Returns inputs ↔ ∀ m ∈ s.moments inputs, ¬ m.shell.Crashes m.input := by
  constructor
  · intro h m hm
    exact smooth_iff.mp (h.completes.smooth_moments m hm)
  · intro h
    -- a moment without a cause ends or goes on, so the run completes, and its trace has an end
    have hcompletes : s.Completes inputs := by
      intro step hstep
      rw [run_eq_map_moments, List.mem_map] at hstep
      obtain ⟨m, hm, rfl⟩ := hstep
      have hstatus := (smooth_iff.mpr (h m hm)).answers.status
      rw [Moment.step, hstatus]
      split <;> rfl
    obtain ⟨s', htrace⟩ := hcompletes.trace
    exact htrace.exists_last

/-- Output that is sent to a path with a null character ends the shell with a crash. -/
theorem not_returns_of_null_path :
    ¬ ∀ (session : Session) (files : FileStore) (inputs : List Input),
      Returns { session, files, pending := [] } inputs := by
  intro h
  have hcompletes := (h { options := {} } {} [.line "?>> a\x00b"]).completes
  have hcrash : ¬ Completes { session := { options := {} }, files := {}, pending := [] }
      [.line "?>> a\x00b"] := by
    decide +kernel
  exact hcrash hcompletes

end Shell

end JsonLayout
