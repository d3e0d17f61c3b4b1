import JsonLayout.Proofs.RoundTrip

/-!
# Formatting what was read

Reading and writing have the same limit on the digits of an integer, and reading gives nothing but
JSON values.  So of the numbers that were read only those that are not finite can be refused, and
only if the options do not allow them.  To allow them changes no text that there is without them.

## Main definitions

* `Json.IsFinite`: values without infinities and without the value that is no number.

## Main results

* `Json.Readable.writable_iff`: what was read has only numbers that can be written, or some that are
  not finite.
* `format_of_read`: what becomes of a value that was read.
-/

namespace JsonLayout

/-- A number other than the infinities and the value that is no number. -/
def Number.isFinite : Number → Bool
  | .int _ => true
  | .double x => x.isFinite

/-- A value of which all numbers are finite. -/
def Json.IsFinite (j : Json) : Prop := ∀ n ∈ j.numbers, n.isFinite = true

instance (j : Json) : Decidable j.IsFinite :=
  inferInstanceAs (Decidable (∀ n ∈ j.numbers, n.isFinite = true))

variable {opts : Options} {j : Json}

/-! ### What was read -/

theorem readable_of_readBytes {bytes : Bytes} (h : readBytes bytes = .ok j) :
    j.Readable nestingLimit := by
  rw [readBytes] at h
  split at h
  · exact readable_of_readText h
  · cases h

/-- **Numbers that were read** can be written if they are finite or the others are allowed. -/
theorem Json.Readable.writable_iff {room : Nat} (h : j.Readable room) :
    j.Writable opts ↔ opts.allowNan = true ∨ j.IsFinite := by
  constructor
  · intro hw
    by_cases hnan : opts.allowNan = true
    · exact .inl hnan
    · refine .inr fun n hn => ?_
      cases n with
      | int n => rfl
      | double x => exact (hw _ hn).resolve_right hnan
  · intro hfinite n hn
    cases n with
    | int n => exact h.2 _ hn
    | double x => exact hfinite.symm.imp_left fun hj => hj _ hn

/-! ### Numbers that are allowed -/

/-- To allow numbers that are not finite changes no text. -/
theorem format_allowNan {t : Text} (h : opts.format j.toDatum = .ok t) :
    ({ opts with allowNan := true } : Options).format j.toDatum = .ok t := by
  obtain ⟨⟨hw, hfits⟩, htext⟩ := Options.format_eq_ok_iff.mp h
  refine Options.format_eq_ok_iff.mpr ⟨⟨fun n hn => ?_, hfits⟩, ?_⟩
  · cases n with
    | int n => exact hw _ hn
    | double x => exact .inr rfl
  · have hlayout : j.layout { opts with allowNan := true } 0 = j.layout opts 0 := by
      refine Json.layout_congr_of_strings ?_ (fun _ _ => ?_) 0
      · rfl
      · rfl
    rw [hlayout, htext]

/-! ### Formatting -/

/-- **What becomes of a value that was read.**  It has a text if its numbers are finite, or the
others are allowed, and the spaces of the innermost level fit in memory.  An error is about a number
that is not finite and not allowed, or about these spaces. -/
theorem format_of_read (opts : Options) {j : Json}
    (h : (∃ t, readText t = .ok j) ∨ ∃ bytes, readBytes bytes = .ok j) :
    ((∃ out, opts.format j.toDatum = .ok out) ↔ (opts.allowNan = true ∨ j.IsFinite) ∧
      ((j.nesting * opts.indentWidth : Nat) : Int) < Options.memoryLimit) ∧
    (∀ e, opts.format j.toDatum = .error e →
      (∃ x, e = .notFinite x ∧ e.message = ("Out of range float value: " : Text) ++ x.text ∧
        opts.allowNan = false ∧ .double x ∈ j.numbers ∧ x.isFinite = false) ∨
      (Options.memoryLimit ≤ ((j.nesting * opts.indentWidth : Nat) : Int) ∧
        (e = .indentOverflow ∨ e = .outOfMemory))) ∧
    ∀ out, opts.allowNan = false → opts.format j.toDatum = .ok out →
      ({ opts with allowNan := true } : Options).format j.toDatum = .ok out := by
  have hread : j.Readable nestingLimit := by
    rcases h with ⟨t, h⟩ | ⟨bytes, h⟩
    · exact readable_of_readText h
    · exact readable_of_readBytes h
  refine ⟨?_, ?_, fun out _ => format_allowNan⟩
  · rw [← hread.writable_iff, ← Options.fits_zero_iff]
    constructor
    · rintro ⟨out, hout⟩
      exact (Options.format_eq_ok_iff.mp hout).1
    · exact fun hok => ⟨_, Options.format_eq_ok_iff.mpr ⟨hok, rfl⟩⟩
  · intro e he
    rcases opts.format_toDatum j with ⟨-, hok⟩ | ⟨e', href, he'⟩
    · rw [hok] at he
      cases he
    · obtain rfl : e' = e := Except.error.inj (he'.symm.trans he)
      cases href with
      | @notFinite x hx hn =>
        obtain ⟨hinfinite, hnan⟩ := not_or.mp hn
        exact .inl ⟨x, rfl, rfl, Bool.eq_false_iff.mpr hnan, hx, Bool.eq_false_iff.mpr hinfinite⟩
      -- the reader refuses integers that are too long to be written
      | integerTooLong hx hn => exact absurd (hread.2 _ hx) hn
      | indentOverflow hfits => exact .inr ⟨Options.not_fits_zero_iff.mp hfits, .inl rfl⟩
      | outOfMemory hfits => exact .inr ⟨Options.not_fits_zero_iff.mp hfits, .inr rfl⟩

/-- A literal that is too large for a double, in bytes with a byte order mark in front. -/
theorem format_of_read_overflowing_literal :
    (∃ bytes, readBytes bytes = .ok (.array [.number (.double (.infinite true))])) ∧
      (¬ ∃ out, (⟨2, true, false⟩ : Options).format
        (Json.array [.number (.double (.infinite true))]).toDatum = .ok out) ∧
      ∃ out, (⟨2, true, true⟩ : Options).format
        (Json.array [.number (.double (.infinite true))]).toDatum = .ok out := by
  have hread : readBytes [0xEF, 0xBB, 0xBF, 0x5B, 0x2D, 0x31, 0x65, 0x34, 0x30, 0x30, 0x5D]
      = .ok (.array [.number (.double (.infinite true))]) := by decide +kernel
  refine ⟨⟨_, hread⟩, fun hout => ?_, ?_⟩
  · have hfinite := ((format_of_read ⟨2, true, false⟩ (.inr ⟨_, hread⟩)).1.mp hout).1
    exact absurd hfinite (by decide +kernel)
  · exact (format_of_read ⟨2, true, true⟩ (.inr ⟨_, hread⟩)).1.mpr ⟨.inl rfl, by decide +kernel⟩

/-- An empty array has no number at all, but a level may be too wide even for it. -/
theorem not_format_of_read_of_wide_indent :
    ¬ ∀ (opts : Options) (j : Json),
      ((∃ t, readText t = .ok j) ∨ ∃ bytes, readBytes bytes = .ok j) →
      ((∃ out, opts.format j.toDatum = .ok out) ↔ opts.allowNan = true ∨ j.IsFinite) := by
  intro h
  have hread : readText "[]" = .ok (.array []) := by decide +kernel
  have hempty := h ⟨2 ^ 63, false, false⟩ (.array []) (.inl ⟨"[]", hread⟩)
  obtain ⟨out, hformat⟩ := hempty.mpr (.inr (by decide +kernel))
  have herror : (⟨2 ^ 63, false, false⟩ : Options).format (Json.array []).toDatum
      = .error .indentOverflow := by decide +kernel
  rw [herror] at hformat
  cases hformat

end JsonLayout
