import JsonLayout.Proofs.Layout.Recursive
import JsonLayout.Proofs.Layout.Strings
import JsonLayout.Proofs.Reading.Ends

/-!
# Where layouts begin and end

A layout has the ends of a value, whatever its strings hold, and the layout of a scalar has no other
line feeds than those in a string that is written as it is.

## Main results

* `Json.exists_cons_layout`, `Json.exists_concat_layout`: the two ends of a layout.
* `Json.lineFeed_not_mem_layout`: scalars stand on one line.
-/

namespace JsonLayout

variable {opts : Options}

namespace Json

/-- A layout begins as a value does. -/
theorem exists_cons_layout (opts : Options) (j : Json) (depth : Int) :
    ∃ c t, j.layout opts depth = c :: t ∧ c.startsValue := by
  cases j with
  | null => exact ⟨_, _, rfl, rfl⟩
  | bool b => cases b <;> exact ⟨_, _, rfl, rfl⟩
  | number n => exact (ValueText.number n.numberText_text).exists_cons_startsValue
  | string s => exact ⟨_, _, rfl, rfl⟩
  | array items => exact ⟨_, _, rfl, rfl⟩
  | object members => exact ⟨_, _, rfl, rfl⟩

/-- A layout ends as a value does. -/
theorem exists_concat_layout (opts : Options) (j : Json) (depth : Int) :
    ∃ t c, j.layout opts depth = t ++ [c] ∧ c.endsValue := by
  cases j with
  | null => exact ⟨"nul", CodePoint.ofChar 'l', rfl, rfl⟩
  | bool b =>
    cases b
    · exact ⟨"fals", CodePoint.ofChar 'e', rfl, rfl⟩
    · exact ⟨"tru", CodePoint.ofChar 'e', rfl, rfl⟩
  | number n => exact (ValueText.number n.numberText_text).exists_concat_endsValue
  | string s => exact ⟨_ :: _, _, rfl, rfl⟩
  | array items => exact ⟨_ :: _ :: _, _, rfl, rfl⟩
  | object members => exact ⟨_ :: _ :: _, _, rfl, rfl⟩

/-- **A scalar** is written on one line, unless it is a string with a line feed that is not
escaped. -/
theorem lineFeed_not_mem_layout {j : Json} (hj : j.nesting = 0)
    (hs : ∀ s ∈ j.strings, CodePoint.lineFeed ∉ opts.stringText s) (depth : Int) :
    CodePoint.lineFeed ∉ j.layout opts depth := by
  cases j with
  | null => exact show CodePoint.lineFeed ∉ ("null" : Text) by decide
  | bool b =>
    cases b
    · exact show CodePoint.lineFeed ∉ ("false" : Text) by decide
    · exact show CodePoint.lineFeed ∉ ("true" : Text) by decide
  | number n => exact fun h => absurd (n.numberText_text.isNumeral _ h) (by decide)
  | string s => exact hs s (List.mem_singleton_self s)
  | array items => exact absurd hj (Nat.ne_of_gt (nesting_array_pos items))
  | object members => exact absurd hj (Nat.ne_of_gt (nesting_object_pos members))

end Json

end JsonLayout
