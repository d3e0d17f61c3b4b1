import JsonLayout.Proofs.Shell.Paste

/-!
# A line that is complete

A line is formatted as soon as it is a complete JSON text.  It cannot have been meant as the first
line of a longer one: what follows a complete text and a line feed is either white space or extra
data.  The shell strips the line of more than the reader skips, but a longer text that is read has
no other blanks there.

## Main results

* `Shell.complete_line_never_cut`: complete texts, what can follow them, and the shell.
-/

namespace JsonLayout

open Text

variable {t : Text} {j : Json}

/-- **A complete text** is not the beginning of a longer one.  With a line feed and more than white
space behind it there is extra data; any other text that goes on from it with more than white space
is a longer number literal.  So the shell, which submits a line as soon as it is complete, never
cuts off what would go on. -/
theorem Shell.complete_line_never_cut (h : readText t = .ok j) :
    (∀ more : Text, ¬ more.IsJsonBlank → ∃ (w u : Text) (c : CodePoint) (place : Position),
      more = w ++ c :: u ∧ w.IsJsonBlank ∧ c.isJsonBlank = false ∧
      place.IsBehind (t ++ CodePoint.lineFeed :: w) ∧
      readText (t ++ CodePoint.lineFeed :: more) = .error (.fault .extraData place)) ∧
    (∀ (rest : Text) (k : Json), readText (t ++ rest) = .ok k →
      rest.IsJsonBlank ∨ t.StopsInLiteral rest) ∧
    ∀ (s : Shell) (line : Text), s.pending = [] → line.strip = t →
      (s.step (.line line)).submitted = some t ∧
      ∀ (more : Text) (k : Json), readText (line ++ CodePoint.lineFeed :: more) = .ok k →
        more.IsJsonBlank ∧ k = j := by
  refine ⟨fun more hmore => ?_, fun rest k => isJsonBlank_or_stopsInLiteral h, ?_⟩
  · obtain ⟨w, u, c, rfl, hw, hc⟩ := exists_cons_of_not_isJsonBlank hmore
    have hline : Text.IsJsonBlank (CodePoint.lineFeed :: w) :=
      List.forall_mem_cons.mpr ⟨rfl, hw⟩
    exact ⟨w, u, c, _, rfl, hw, hc, Position.isBehind_behind _,
      readText_append_extraData h hline hc (beginsOutside_cons_iff.mpr rfl)⟩
  · rintro s line hpending rfl
    refine ⟨?_, fun more k => isJsonBlank_of_readText_line h⟩
    have hcommand : isCommand line.strip = false := by
      rw [← strip_strip]
      exact isCommand_strip_of_readText h
    have hrole : s.role (.line line) = .submit line.strip := by
      rw [role_line_of_nil hpending,
        Role.ofFreshLine_of_not_isCommand (ne_nil_of_readText h) hcommand, h]
    rw [step_submitted (by rw [hrole]; rfl), hrole]
    rfl

/-- A digit is complete.  Another digit makes it a longer literal, and a second line extra data. -/
theorem Shell.complete_line_never_cut_of_digit :
    readText "1" = .ok (.number (.int 1)) ∧
    (∃ place, readText "1\n 2" = .error (.fault .extraData place)) ∧
    Text.StopsInLiteral "1" "2" ∧
    ∀ s : Shell, s.pending = [] → (s.step (.line " 1")).submitted = some "1" := by
  have hread : readText "1" = .ok (.number (.int 1)) := by decide +kernel
  have hlonger : readText ("1" ++ "2" : Text) = .ok (.number (.int 12)) := by decide +kernel
  obtain ⟨hextra, hrest, hshell⟩ := complete_line_never_cut hread
  refine ⟨hread, ?_, (hrest "2" _ hlonger).resolve_left (by decide), fun s hpending => ?_⟩
  · obtain ⟨w, u, c, place, -, -, -, -, hfault⟩ := hextra " 2" (by decide)
    exact ⟨place, hfault⟩
  · exact (hshell s " 1" hpending (by decide)).1

end JsonLayout
