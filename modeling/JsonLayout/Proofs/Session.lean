import JsonLayout.Proofs.Layout.Derives
import JsonLayout.Proofs.Layout.Ends
import JsonLayout.Session.Basic

/-!
# What a session makes of a JSON text

The output for a JSON text depends on its value and on the options, but not on how the text is
written.  A layout can be told from a message: it begins like a value, and a message does not.

## Main definitions

* `Session.outputOf`: the output for a value.

## Main results

* `Session.formatText_output`: the output for a text is the one for its value.
* `Session.formatText_history`: a text is added to the history unless its output is a message.
-/

namespace JsonLayout

variable {opts : Options}

/-! ### Layouts and messages -/

/-- A layout does not look like a message. -/
theorem startsWith_errorLead_of_format {j : Json} {t : Text}
    (h : opts.format j.toDatum = .ok t) : t.startsWith errorLead = false := by
  obtain ⟨-, rfl⟩ := Options.format_eq_ok_iff.mp h
  obtain ⟨c, u, hlayout, hc⟩ := j.exists_cons_layout opts 0
  have hlead : errorLead = CodePoint.ofChar 'e' :: "rror: " := rfl
  rw [hlayout, hlead]
  exact Text.startsWith_of_startsValue hc rfl _ _

theorem startsWith_errorLead_append (message : Text) :
    (errorLead ++ message).startsWith errorLead = true := by
  rw [Text.startsWith, Text.after?_eq_some_iff.mpr rfl]
  rfl

/-! ### Texts -/

namespace Session

variable {s : Session} {j : Json} {t : Text}

/-- The output for a value: its layout, or a message. -/
def outputOf (s : Session) (j : Json) : Except Crash Text :=
  match s.options.format j.toDatum with
  | .ok t => .ok t
  | .error e =>
    match Failure.ofData e with
    | .message message => .ok (errorLead ++ message)
    | .crash crash => .error crash

/-- **The output for a text** is the one for its value. -/
theorem formatText_output (h : readText t = .ok j) : (s.formatText t).value.2 = s.outputOf j := by
  rw [formatText, outputOf]
  simp only [Logged.read, h, Logged.format]
  cases s.options.format j.toDatum with
  | ok out => rfl
  | error e => cases hfailure : Failure.ofData e <;> simp only [hfailure, answer]

/-- **A text is added to the history** unless its output is a message. -/
theorem formatText_history {out : Text} (h : readText t = .ok j) (hout : s.outputOf j = .ok out) :
    (s.formatText t).value.1.history
      = if out.startsWith errorLead then s.history else s.history ++ [t] := by
  rw [outputOf] at hout
  rw [formatText]
  simp only [Logged.read, h, Logged.format]
  cases hformat : s.options.format j.toDatum with
  | ok layout =>
    rw [hformat] at hout
    obtain rfl := Except.ok.inj hout
    rw [startsWith_errorLead_of_format hformat]
    rfl
  | error e =>
    rw [hformat] at hout
    cases hfailure : Failure.ofData e with
    | crash crash =>
      simp only [hfailure] at hout
      cases hout
    | message message =>
      simp only [hfailure] at hout
      obtain rfl := Except.ok.inj hout
      rw [startsWith_errorLead_append]
      simp only [hfailure, answer, if_true]

end Session

end JsonLayout
