import JsonLayout.Proofs.Session.Answers
import JsonLayout.Proofs.Shell.Paste

/-!
# A line that is a JSON text

A session strips a line of more than JSON counts as white space, and then looks for commands.  A
value neither begins nor ends with a blank, and begins with no command, so a JSON text stays what it
is: the line is answered as the text would be.  Only the history holds it without the blanks around
it.

## Main results

* `Request.operation?_of_readText`: what a JSON text asks for as a line.
* `Session.processLine_of_operation?`: the answer to a line that asks for a text.
* `Session.processLine_answers_text`: a line that is a JSON text, next to the text itself.
-/

namespace JsonLayout

open Text

variable {s : Session} {files : FileStore} {t line : Text} {j : Json} {crash : Crash}

/-! ### Lines that ask for a text -/

/-- **A JSON text** is no command. -/
theorem Request.operation?_of_readText (files : FileStore) (h : readText t = .ok j) :
    (Request.line files t).operation? = some (.text t.strip) := by
  obtain ⟨c, u, hstrip, hc⟩ := exists_strip_eq_cons_of_readText h
  have hcommand {name : Text} (hname : name.head? = some (CodePoint.ofChar ':')) :
      c :: u ≠ name := by
    rintro rfl
    cases hname
    cases hc
  have hfile : after? Session.formatFileLead (c :: u) = none := by
    rw [← Option.not_isSome_iff_eq_none, Bool.not_eq_true]
    exact startsWith_of_startsValue hc rfl _ _
  simp only [operation?, hstrip, hfile]
  rw [if_neg (by simp), if_neg (not_or.mpr ⟨hcommand rfl, hcommand rfl⟩), if_neg (hcommand rfl),
    if_neg (hcommand rfl)]

namespace Session

/-- **A line that asks for a text** is answered as the text is. -/
theorem processLine_of_operation? (h : (Request.line files line).operation? = some (.text t)) :
    s.processLine files line = s.textReply t := by
  simp only [Request.operation?] at h
  split_ifs at h with hempty hquit hhistory hreset
  · cases h
  · split at h
    · cases h
    · next hfile =>
      obtain rfl : line.strip = t := by simpa using h
      simp only [processLine, hempty, hquit, hhistory, hreset, hfile, if_false]
      rfl

/-! ### What is kept of a text -/

/-- The history stays as it is when formatting crashes. -/
theorem formatText_history_of_error (h : (s.formatText t).value.2 = .error crash) :
    (s.formatText t).value.1.history = s.history := by
  rw [formatText] at h ⊢
  cases hresult : ((Logged.read t).format s.options).value with
  | ok out =>
    simp only [hresult] at h
    cases h
  | error failure =>
    cases failure <;> rfl

/-- There is an output for a value unless its innermost lines have no room in memory. -/
theorem wide_of_outputOf_eq_error (h : s.outputOf j = .error crash) :
    Options.memoryLimit ≤ ((j.nesting * s.options.indentWidth : Nat) : Int) := by
  rw [outputOf] at h
  cases hformat : s.options.format j.toDatum with
  | ok out =>
    rw [hformat] at h
    cases h
  | error e =>
    rw [hformat] at h
    cases hfailure : Failure.ofData e with
    | message m =>
      simp only [hfailure] at h
      cases h
    | crash crash =>
      exact wide_of_format_eq_error hformat (Failure.ofData_eq_crash_iff.mp ⟨crash, hfailure⟩)

/-! ### Lines next to texts -/

/-- **A line that is a JSON text** has the value that it has without the blanks around it, and is no
command.  It is answered as the text is: the output is written, and the line is added to the history
if the text would be.  If the innermost lines of the value have no room in memory, both crash alike,
before anything is written. -/
theorem processLine_answers_text (s : Session) (files : FileStore) (h : readText t = .ok j) :
    readText t.strip = .ok j ∧ Shell.isCommand t.strip = false ∧
    (Request.line files t).operation? = some (.text t.strip) ∧
    (s.processLine files t).session = (s.formatText t.strip).value.1 ∧
    ((∃ out, (s.formatText t).value.2 = .ok out ∧
        (s.processLine files t).goesOn = .ok true ∧
        (s.processLine files t).writes = [out.withFinalLineFeed] ∧
        ((s.processLine files t).session.history = s.history ++ [t.strip] ∧
            (s.formatText t).value.1.history = s.history ++ [t] ∨
          (s.processLine files t).session.history = s.history ∧
            (s.formatText t).value.1.history = s.history)) ∨
      ∃ crash, (s.formatText t).value.2 = .error crash ∧
        Options.memoryLimit ≤ ((j.nesting * s.options.indentWidth : Nat) : Int) ∧
        (s.processLine files t).goesOn = .error crash ∧
        (s.processLine files t).writes = [] ∧
        (s.processLine files t).session.history = s.history ∧
        (s.formatText t).value.1.history = s.history) := by
  have hstrip := readText_strip h
  have hrequest := Request.operation?_of_readText files h
  have hreply : s.processLine files t = s.textReply t.strip := processLine_of_operation? hrequest
  have hafter := s.textReply_session t.strip
  rw [hreply, hafter]
  refine ⟨hstrip, isCommand_strip_of_readText h, hrequest, rfl, ?_⟩
  cases hout : s.outputOf j with
  | ok out =>
    refine .inl ⟨out, (formatText_output h).trans hout, ?_⟩
    rw [textReply_of_ok ((formatText_output hstrip).trans hout), formatText_history hstrip hout,
      formatText_history h hout]
    refine ⟨rfl, rfl, ?_⟩
    split_ifs with hlead
    · exact .inr ⟨rfl, rfl⟩
    · exact .inl ⟨rfl, rfl⟩
  | error crash =>
    have hcrash := (formatText_output h).trans hout
    have hcrash' := (formatText_output hstrip).trans hout
    refine .inr ⟨crash, hcrash, wide_of_outputOf_eq_error hout, ?_⟩
    rw [textReply_of_error hcrash']
    exact ⟨rfl, rfl, formatText_history_of_error hcrash', formatText_history_of_error hcrash⟩

/-- Tabs and line feeds are stripped; the history tells that the line was not the text. -/
theorem processLine_answers_text_of_blanks :
    let s : Session := ⟨{}, ["0"], none, none⟩
    readText "\t[1]\n" = .ok (.array [.number (.int 1)]) ∧
    (s.processLine {} "\t[1]\n").writes = ["[\n  1\n]\n"] ∧
    (s.processLine {} "\t[1]\n").session.history = ["0", "[1]"] := by
  intro s
  have hread : readText "\t[1]\n" = .ok (.array [.number (.int 1)]) := by decide +kernel
  have hlayout : (s.formatText "\t[1]\n").value.2 = .ok "[\n  1\n]\n" := by decide +kernel
  have hhistory : (s.formatText "\t[1]\n").value.1.history = ["0", "\t[1]\n"] := by decide +kernel
  obtain ⟨-, -, -, -, hanswer⟩ := processLine_answers_text s {} hread
  rcases hanswer with ⟨out, hout, -, hwrites, ⟨hline, -⟩ | ⟨-, hkept⟩⟩ | ⟨crash, hcrash, -⟩
  · obtain rfl := Except.ok.inj (hout.symm.trans hlayout)
    exact ⟨hread, hwrites, hline⟩
  · cases hkept.symm.trans hhistory
  · cases hcrash.symm.trans hlayout

/-- A line that is an empty array is not answered if its level is too wide. -/
theorem not_processLine_goesOn_of_wide_indent :
    ¬ ∀ (s : Session) (files : FileStore) (t : Text) (j : Json), readText t = .ok j →
      (s.processLine files t).goesOn = .ok true := by
  intro h
  have hread : readText "[]" = .ok (.array []) := by decide +kernel
  have hcrash : (processLine { options := ⟨2 ^ 63, false, false⟩ } {} "[]").goesOn
      = .error (.unanswered .indentOverflow) := by decide +kernel
  cases hcrash.symm.trans (h _ _ _ _ hread)

end Session

end JsonLayout
