import JsonLayout.Proofs.Reading.Ends
import JsonLayout.Proofs.Session.Runs
import JsonLayout.Proofs.Shell.Commands
import JsonLayout.Proofs.Text.LineEnds

/-!
# The listing of the history

A text that is kept was read, so it is not blank, and the first character that is left of it when it
is stripped breaks no line.  That is why each text has a first line to be listed, and why the
listing has as many lines as the history has texts: no first line has a line break of any kind in
it, and neither has what stands in front of it.

## Main definitions

* `Text.breakLines`: the lines of a text in the wider sense of Unicode.
* `Session.Reachable`: the sessions that requests and the shell lead to.

## Main results

* `Text.head?_breakLines`: the first line of a text.
* `Shell.step_session`: what a step of the shell makes of the session, even if it crashes.
* `Session.Reachable.exists_readText`: what is kept was read.
* `Session.Reachable.processLine_history`: the listing of the history.
-/

namespace JsonLayout

/-! ### Lines in the wider sense -/

theorem CodePoint.isBlank_of_isLineBreak {c : CodePoint} (h : c.isLineBreak) : c.isBlank := by
  simp only [isLineBreak, isBlank, Bool.or_eq_true, Bool.and_eq_true, beq_iff_eq,
    decide_eq_true_eq] at *
  omega

theorem CodePoint.isLineBreak_of_isDigit {c : CodePoint} (h : c.isDigit) :
    c.isLineBreak = false := by
  by_contra hbreak
  rw [Bool.not_eq_false] at hbreak
  cases (isBlank_of_isLineBreak hbreak).symm.trans (isBlank_of_isDigit h)

namespace Text

/-- A text cut at every line break; what is behind the last one has to hold something. -/
def cutAtBreaks : Text → List Text
  | [] => []
  | c :: t =>
    if c.isLineBreak then [] :: cutAtBreaks t
    else
      match cutAtBreaks t with
      | [] => [[c]]
      | line :: rest => (c :: line) :: rest

/-- **The lines of a text**, each without its line break.  A carriage return and the line feed right
behind it break one line. -/
def breakLines (t : Text) : List Text := cutAtBreaks t.universalLineFeeds

/-- A text without a line break. -/
def IsUnbroken (t : Text) : Prop := ∀ c ∈ t, c.isLineBreak = false

theorem isUnbroken_firstLine (t : Text) : IsUnbroken t.firstLine := by
  intro c hc
  have hclass := List.mem_takeWhile_imp hc
  rwa [Bool.not_eq_true'] at hclass

theorem cutAtBreaks_append {line : Text} (hline : line.IsUnbroken) (t : Text) :
    cutAtBreaks (line ++ CodePoint.lineFeed :: t) = line :: cutAtBreaks t := by
  induction line with
  | nil => rfl
  | cons c line ih =>
    obtain ⟨hc, hrest⟩ := List.forall_mem_cons.mp hline
    rw [List.cons_append, cutAtBreaks, hc, ih hrest]
    rfl

/-- Lines that are put one below the other are the lines of the whole. -/
theorem cutAtBreaks_flatMap {lines : List Text} (h : ∀ line ∈ lines, IsUnbroken line) :
    cutAtBreaks (lines.flatMap fun line => line ++ [CodePoint.lineFeed]) = lines := by
  induction lines with
  | nil => rfl
  | cons line lines ih =>
    rw [List.forall_mem_cons] at h
    rw [List.flatMap_cons, List.append_assoc, List.singleton_append, cutAtBreaks_append h.1, ih h.2]

theorem carriageReturn_not_mem {t : Text}
    (h : ∀ c ∈ t, c.isLineBreak = false ∨ c = CodePoint.lineFeed) : CodePoint.ofChar '\r' ∉ t := by
  intro hmem
  rcases h _ hmem with hbreak | hfeed
  · exact absurd hbreak (by decide)
  · exact absurd hfeed (by decide)

/-- **Lines without breaks**, each with a line feed behind it, are cut into the same lines. -/
theorem breakLines_flatMap {lines : List Text} (h : ∀ line ∈ lines, IsUnbroken line) :
    breakLines (lines.flatMap fun line => line ++ [CodePoint.lineFeed]) = lines := by
  have hreturn : CodePoint.ofChar '\r' ∉
      lines.flatMap fun line => line ++ [CodePoint.lineFeed] := by
    refine carriageReturn_not_mem fun c hc => ?_
    obtain ⟨line, hline, hc⟩ := List.mem_flatMap.mp hc
    rw [List.mem_append, List.mem_singleton] at hc
    exact hc.imp_left (h line hline c)
  rw [breakLines, universalLineFeeds_eq_self hreturn, cutAtBreaks_flatMap h]

theorem head?_cutAtBreaks {t : Text} (h : t ≠ []) :
    (cutAtBreaks t).head? = some (t.takeWhile fun c => !c.isLineBreak) := by
  induction t with
  | nil => exact absurd rfl h
  | cons c t ih =>
    rw [cutAtBreaks]
    split
    · next hc =>
      rw [List.takeWhile_cons_of_neg (by simp [hc])]
      rfl
    · next hc =>
      rw [List.takeWhile_cons_of_pos (by simp [hc])]
      rcases eq_or_ne t [] with rfl | ht
      · rfl
      · have hhead := ih ht
        cases hcut : cutAtBreaks t with
        | nil =>
          rw [hcut] at hhead
          cases hhead
        | cons line rest =>
          rw [hcut] at hhead
          exact congrArg some (congrArg (c :: ·) (Option.some.inj hhead))

/-- **The first line** of a text that is not empty. -/
theorem head?_breakLines {t : Text} (h : t ≠ []) : t.breakLines.head? = some t.firstLine := by
  rw [breakLines, head?_cutAtBreaks (mt universalLineFeeds_eq_nil_iff.mp h), firstLine,
    takeWhile_universalLineFeeds rfl rfl]

/-- What begins with no line break has something on its first line. -/
theorem firstLine_ne_nil {c : CodePoint} (hc : c.isLineBreak = false) (t : Text) :
    firstLine (c :: t) ≠ [] := by
  rw [firstLine, List.takeWhile_cons_of_pos (by rw [hc]; rfl)]
  exact List.cons_ne_nil _ _

end Text

/-! ### The session of a shell -/

namespace Shell

variable {s : Shell} {input : Input}

theorem write_session (s : Shell) (ts : List Text) : (s.write ts).shell.session = s.session := by
  fun_induction write s ts <;> first | rfl | assumption

theorem deliver_session (s : Shell) (reply : Session.LineResult) :
    (s.deliver reply).shell.session = reply.session := by
  have h := write_session { s with session := reply.session } reply.writes
  rw [deliver]
  split <;> exact h

theorem redirectTo_session (s : Shell) (path : Text) :
    (s.redirectTo path).shell.session = s.session := by
  rw [redirectTo]
  split
  · exact s.close_session
  · split <;> exact s.close_session

theorem handle_session (s : Shell) (input : Input) :
    (s.handle input).shell.session = (s.reply input).session := by
  cases hredirect : (s.role input).isRedirect with
  | true =>
    obtain ⟨path, hpath⟩ := Role.exists_of_isRedirect hredirect
    rw [handle_of_redirect hpath, reply_of_redirect hpath]
    cases path with
    | none => exact s.close_session
    | some path => exact s.redirectTo_session path
  | false =>
    obtain ⟨log, hlog⟩ := handle_eq hredirect
    rw [hlog, Step.withLog, Input.conclude_shell]
    exact deliver_session _ _

/-- **What a step makes of the session** is what the session makes of the input, even if the step
crashes. -/
theorem step_session (s : Shell) (input : Input) :
    (s.step input).shell.session = (s.reply input).session := by
  rw [← handle_session, step]
  split
  · rfl
  · exact close_session _

/-- The session does what a request asks for, or nothing. -/
theorem reply_session_cases (s : Shell) (input : Input) :
    (s.reply input).session = s.session ∨
      ∃ r, (s.reply input).session = s.session.serve r := by
  rw [reply]
  cases s.role input with
  | submit t => exact .inr ⟨.operation (.text t), Session.textReply_session _ _⟩
  | command line => exact .inr ⟨.line s.files line, rfl⟩
  | _ => exact .inl rfl

end Shell

/-! ### What is kept -/

namespace Session

/-- **The sessions there can be**: a new one, with any options, and what comes of it by requests and
in shells. -/
inductive Reachable : Session → Prop where
  | new (opts : Options) : Reachable { options := opts }
  | serve {s : Session} (h : Reachable s) (r : Request) : Reachable (s.serve r)
  | step {s : Shell} (h : Reachable s.session) (input : Input) :
      Reachable (s.step input).shell.session

/-- What an operation keeps was read, if all that was kept before it was. -/
theorem exists_readText_perform {s : Session} (h : ∀ t ∈ s.history, ∃ j, readText t = .ok j)
    (o : Operation) : ∀ t ∈ (s.perform o).1.history, ∃ j, readText t = .ok j := by
  have hp := s.performs o
  generalize s.perform o = p at hp
  cases hp with
  | reset => exact nofun
  | message | crash => exact h
  | @layout argument out hargument hsucceeds hlead =>
    rw [List.forall_mem_append]
    refine ⟨h, fun t ht => ?_⟩
    cases o with
    | text u =>
      obtain rfl := List.mem_singleton.mp ht
      cases hread : readText t with
      | ok j => exact ⟨j, rfl⟩
      | error e =>
        rw [Operation.succeeds, Operation.value?, hread] at hsucceeds
        cases hsucceeds
    | file | reset => cases ht

theorem exists_readText_serve {s : Session} (h : ∀ t ∈ s.history, ∃ j, readText t = .ok j)
    (r : Request) : ∀ t ∈ (s.serve r).history, ∃ j, readText t = .ok j := by
  rw [serve_eq]
  cases r.operation? with
  | none => exact h
  | some o => exact exists_readText_perform h o

/-- **What is kept was read.** -/
theorem Reachable.exists_readText {s : Session} (h : s.Reachable) :
    ∀ t ∈ s.history, ∃ j, readText t = .ok j := by
  induction h with
  | new => exact nofun
  | serve _ r ih => exact exists_readText_serve ih r
  | @step s _ input ih =>
    rw [Shell.step_session]
    rcases s.reply_session_cases input with hsame | ⟨r, hr⟩
    · rw [hsame]
      exact ih
    · rw [hr]
      exact exists_readText_serve ih r

/-! ### The listing -/

theorem length_entryLines (n : Nat) (history : List Text) :
    (entryLines n history).length = history.length := by
  induction history generalizing n with
  | nil => rfl
  | cons t history ih => exact congrArg (· + 1) (ih (n + 1))

theorem getElem?_entryLines (n : Nat) (history : List Text) (i : Nat) :
    (entryLines n history)[i]? = history[i]?.map fun t =>
      ("  " : Text) ++ Decimal.ofNat (n + i) ++ (": " : Text) ++ t.strip.firstLine := by
  induction history generalizing n i with
  | nil => rfl
  | cons t history ih =>
    cases i with
    | zero => rfl
    | succ i =>
      rw [entryLines, List.getElem?_cons_succ, List.getElem?_cons_succ, ih, Nat.add_assoc,
        Nat.add_comm 1]

theorem isUnbroken_of_mem_entryLines {n : Nat} {history : List Text} {line : Text}
    (h : line ∈ entryLines n history) : line.IsUnbroken := by
  induction history generalizing n with
  | nil => cases h
  | cons t history ih =>
    rcases List.mem_cons.mp h with rfl | hmem
    · simp only [Text.IsUnbroken, List.forall_mem_append]
      refine ⟨⟨⟨by decide, fun c hc => ?_⟩, by decide⟩, Text.isUnbroken_firstLine t.strip⟩
      exact CodePoint.isLineBreak_of_isDigit ((Decimal.isDigits_ofNat n).2 c hc)
    · exact ih hmem

/-- What is written is the lines, each with a line feed behind it. -/
theorem flatten_flatMap_lines (lines : List Text) :
    (lines.flatMap fun l => [l, [CodePoint.lineFeed]]).flatten
      = lines.flatMap fun l => l ++ [CodePoint.lineFeed] := by
  induction lines with
  | nil => rfl
  | cons l lines ih =>
    rw [List.flatMap_cons, List.flatMap_cons, List.flatten_append, ih]
    simp

/-- The command lists the history and does nothing else. -/
theorem processLine_of_history {s : Session} {files : FileStore} {line : Text}
    (h : line.strip = (":history" : Text)) (hhistory : s.history ≠ []) :
    s.processLine files line =
      { session := s
        writes := (entryLines 1 s.history).flatMap fun l => [l, [CodePoint.lineFeed]] } := by
  have hlines : s.historyLines = entryLines 1 s.history :=
    if_neg (by simpa using hhistory)
  rw [← hlines]
  simp only [processLine, h]
  rfl

/-- **The listing of the history** of a session that can be reached has a line for each text that is
kept.  Each of these texts has a first line behind its blanks, which holds something and stands
behind its number; and the whole listing has no other lines, whatever line breaks there are in the
texts. -/
theorem Reachable.processLine_history {s : Session} (h : s.Reachable) (hhistory : s.history ≠ [])
    (files : FileStore) {line : Text} (hline : line.strip = (":history" : Text)) :
    (s.processLine files line).session = s ∧ (s.processLine files line).goesOn = .ok true ∧
    ∃ listing : List Text,
      (s.processLine files line).writes.flatten
        = listing.flatMap (fun l => l ++ [CodePoint.lineFeed]) ∧
      listing.length = s.history.length ∧
      (∀ i t, s.history[i]? = some t → ∃ first, t.strip.breakLines.head? = some first ∧
        first ≠ [] ∧ listing[i]? = some
          (("  " : Text) ++ Decimal.ofNat (i + 1) ++ (": " : Text) ++ first)) ∧
      Text.breakLines (s.processLine files line).writes.flatten = listing := by
  rw [processLine_of_history hline hhistory]
  have hwrites := flatten_flatMap_lines (entryLines 1 s.history)
  refine ⟨rfl, rfl, entryLines 1 s.history, hwrites, length_entryLines 1 s.history, ?_, ?_⟩
  · intro i t hi
    obtain ⟨j, hread⟩ := h.exists_readText t (List.mem_of_getElem? hi)
    obtain ⟨c, u, hstrip, hc⟩ := exists_strip_eq_cons_of_readText hread
    have hbreak : c.isLineBreak = false := by
      by_contra hbreak
      rw [Bool.not_eq_false] at hbreak
      cases (CodePoint.isBlank_of_isLineBreak hbreak).symm.trans
        (CodePoint.isBlank_of_startsValue hc)
    have hne : t.strip ≠ [] := by
      rw [hstrip]
      exact List.cons_ne_nil c u
    refine ⟨t.strip.firstLine, Text.head?_breakLines hne, ?_, ?_⟩
    · rw [hstrip]
      exact Text.firstLine_ne_nil hbreak u
    · rw [getElem?_entryLines, hi, Nat.add_comm 1]
      rfl
  · rw [hwrites, Text.breakLines_flatMap fun l => isUnbroken_of_mem_entryLines]

/-- A line separator in a string, and a carriage return in front of it: each text is on one line. -/
theorem processLine_history_of_separators :
    let s := (serve { options := {} } (.operation (.text "\r\n[\"a\u2028b\"]"))).serve
      (.line {} "\t[1,\r2]")
    let lines := Text.breakLines (s.processLine {} " :history").writes.flatten
    lines.length = 2 ∧ lines[0]? = some ("  1: [\"a" : Text) ∧
      lines[1]? = some ("  2: [1," : Text) := by
  intro s lines
  have hreachable : s.Reachable := .serve (.serve (.new {}) _) _
  have hhistory : s.history = ["\r\n[\"a\u2028b\"]", "[1,\r2]"] := by decide +kernel
  have hne : s.history ≠ [] := by
    rw [hhistory]
    exact List.cons_ne_nil _ _
  have hline : Text.strip " :history" = (":history" : Text) := by decide +kernel
  obtain ⟨-, -, listing, -, hlength, hentries, hlines⟩ :=
    hreachable.processLine_history hne {} hline
  rw [hhistory] at hlength hentries
  obtain ⟨first, hfirst, -, hentry⟩ := hentries 0 _ rfl
  obtain ⟨second, hsecond, -, hentry'⟩ := hentries 1 _ rfl
  have hheads : Text.breakLines (Text.strip "\r\n[\"a\u2028b\"]") = ["[\"a", "b\"]"] ∧
      Text.breakLines (Text.strip "[1,\r2]") = ["[1,", "2]"] := by decide +kernel
  rw [hheads.1] at hfirst
  rw [hheads.2] at hsecond
  cases hfirst
  cases hsecond
  rw [show lines = listing from hlines]
  exact ⟨hlength, hentry.trans (by decide +kernel), hentry'.trans (by decide +kernel)⟩

end Session

end JsonLayout
