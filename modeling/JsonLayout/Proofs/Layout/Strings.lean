import JsonLayout.Layout.Scalar
import JsonLayout.Proofs.Grammar
import Mathlib.Tactic.SplitIfs

/-!
# Strings as they are written

An escaped string derives from the grammar whatever it holds: everything that may not stand for
itself is escaped, and no numbered escape writes a surrogate, so none are joined.  A string that is
written as it is derives from the grammar if it holds nothing that has to be escaped.

## Main definitions

* `CodePoint.Spelling`: a text that stands for one code point in a string.
* `Options.Spells`: a string whose text derives that string.
* `Text.IsClean`: a text without quotes, backslashes and control characters.

## Main results

* `CodePoint.isControl_escaped`: escaped characters are written without control characters.
* `Options.spells_of_escapeStrings`, `Options.spells_of_isClean`: strings that are read back.
* `Options.lineFeed_not_mem_stringText`: strings that are written on one line.
-/

namespace JsonLayout

/-! ### Units without pairs -/

namespace StringUnit

/-- Units of which none begins a pair stand for one code point each. -/
theorem joined_eq_map {us : List StringUnit}
    (h : ∀ u ∈ us, u.numbered → u.point.isHighSurrogate = false) : joined us = us.map point := by
  induction us with
  | nil => rfl
  | cons u us ih =>
    rw [List.forall_mem_cons] at h
    cases us with
    | nil => rfl
    | cons v us =>
      have hpair : u.isPair v = false := by
        rw [isPair]
        cases hu : u.numbered with
        | false => rfl
        | true => simp [h.1 hu]
      rw [joined, hpair, if_neg Bool.false_ne_true, ih h.2]
      rfl

end StringUnit

/-! ### Escapes -/

namespace CodePoint

theorem hexValue?_hexDigit (n : Nat) : (hexDigit n).hexValue? = some (n % 16) := by
  have hlt : n % 16 < 16 := Nat.mod_lt n (by decide)
  by_cases h : n % 16 < 10
  · rw [hexDigit, if_pos h, hexValue?]
    have hdigit : (0x30 ≤ 0x30 + n % 16 && 0x30 + n % 16 ≤ 0x39) = true := by
      simp only [Bool.and_eq_true, decide_eq_true_eq]
      omega
    rw [if_pos hdigit, Option.some.injEq]
    exact Nat.add_sub_cancel_left ..
  · rw [hexDigit, if_neg h, hexValue?]
    have hdigit : ¬ (0x30 ≤ 0x57 + n % 16 && 0x57 + n % 16 ≤ 0x39) = true := by
      simp only [Bool.and_eq_true, decide_eq_true_eq]
      omega
    have hletter : (0x61 ≤ 0x57 + n % 16 && 0x57 + n % 16 ≤ 0x66) = true := by
      simp only [Bool.and_eq_true, decide_eq_true_eq]
      omega
    rw [if_neg hdigit, if_pos hletter, Option.some.injEq]
    exact Nat.add_sub_cancel_left ..

/-- A text that stands for one code point in a string, by a unit that begins no pair. -/
def Spelling (c : CodePoint) (t : Text) : Prop :=
  ∃ numbered : Bool, (numbered → c.isHighSurrogate = false) ∧
    ∀ b us, UnitsText b us → UnitsText (t ++ b) (⟨c, numbered⟩ :: us)

theorem spelling_self {c : CodePoint} (control : 0x20 ≤ c.val) (quote : c ≠ CodePoint.ofChar '"')
    (backslash : c ≠ CodePoint.ofChar '\\') : c.Spelling [c] :=
  ⟨false, fun h => (Bool.false_ne_true h).elim, fun _ _ h => .plain control quote backslash h⟩

theorem spelling_letter {c e : CodePoint} (h : (e, c) ∈ escapeLetters) :
    c.Spelling [CodePoint.ofChar '\\', e] :=
  ⟨false, fun h => (Bool.false_ne_true h).elim, fun _ _ hb => .letter h hb⟩

theorem spelling_numbered {c : CodePoint} (control : c.val < 0x20) :
    c.Spelling (CodePoint.ofChar '\\' :: CodePoint.ofChar 'u' :: Text.hexadecimal 4 c.val) := by
  refine ⟨true, fun _ => ?_, fun b us hb => ?_⟩
  · rw [isHighSurrogate, Bool.and_eq_false_iff, decide_eq_false_iff_not]
    exact .inl (by omega)
  · refine .numbered (hexValue?_hexDigit _) (hexValue?_hexDigit _) (hexValue?_hexDigit _)
      (hexValue?_hexDigit _) ?_ hb
    show c.val = c.val / 4096 % 16 * 0x1000 + c.val / 256 % 16 * 0x100 + c.val / 16 % 16 * 0x10 +
      c.val / 1 % 16
    omega

/-- **An escaped character stands for itself.** -/
theorem spelling_escaped (c : CodePoint) : c.Spelling c.escaped := by
  unfold escaped
  split_ifs with hq hb hn hr ht h8 hc hcontrol
  · subst hq
    exact spelling_letter (by decide)
  · subst hb
    exact spelling_letter (by decide)
  · subst hn
    exact spelling_letter (by decide)
  · subst hr
    exact spelling_letter (by decide)
  · subst ht
    exact spelling_letter (by decide)
  · have h : c = CodePoint.ofChar '\x08' := by
      cases c
      cases h8
      rfl
    subst h
    exact spelling_letter (by decide)
  · have h : c = CodePoint.ofChar '\x0C' := by
      cases c
      cases hc
      rfl
    subst h
    exact spelling_letter (by decide)
  · exact spelling_numbered (by simpa [isControl] using hcontrol)
  · exact spelling_self (by simpa [isControl] using hcontrol) hq hb

theorem isControl_hexadecimal (width n : Nat) :
    ∀ d ∈ Text.hexadecimal width n, d.isControl = false := by
  intro d hd
  rw [Text.hexadecimal, List.mem_reverse, List.mem_map] at hd
  obtain ⟨i, -, rfl⟩ := hd
  rw [hexDigit, isControl]
  split_ifs
  · exact decide_eq_false (Nat.not_lt.mpr (Nat.le_add_right_of_le (by decide)))
  · exact decide_eq_false (Nat.not_lt.mpr (Nat.le_add_right_of_le (by decide)))

/-- **An escaped character** is written without control characters. -/
theorem isControl_escaped (c : CodePoint) : ∀ d ∈ c.escaped, d.isControl = false := by
  unfold escaped
  split_ifs with hq hb hn hr ht h8 hc hcontrol
  · decide
  · decide
  · decide
  · decide
  · decide
  · decide
  · decide
  · exact List.forall_mem_append.mpr ⟨by decide, isControl_hexadecimal 4 c.val⟩
  · simpa using hcontrol

end CodePoint

/-! ### Strings -/

/-- Spellings of all code points of a text. -/
theorem StringText.of_spelling {f : CodePoint → Text} {s : Text}
    (h : ∀ c ∈ s, c.Spelling (f c)) :
    StringText (CodePoint.ofChar '"' :: (s.flatMap f ++ [CodePoint.ofChar '"'])) s := by
  obtain ⟨us, hus, hpoint, hpair⟩ : ∃ us, UnitsText (s.flatMap f) us ∧
      us.map StringUnit.point = s ∧
      ∀ u ∈ us, u.numbered → u.point.isHighSurrogate = false := by
    induction s with
    | nil => exact ⟨[], .nil, rfl, List.forall_mem_nil _⟩
    | cons c s ih =>
      rw [List.forall_mem_cons] at h
      obtain ⟨numbered, hhigh, hunit⟩ := h.1
      obtain ⟨us, hus, hpoint, hpair⟩ := ih h.2
      refine ⟨⟨c, numbered⟩ :: us, ?_, ?_, List.forall_mem_cons.mpr ⟨hhigh, hpair⟩⟩
      · rw [List.flatMap_cons]
        exact hunit _ _ hus
      · rw [List.map_cons, hpoint]
  have htext := StringText.mk hus
  rwa [StringUnit.joined_eq_map hpair, hpoint] at htext

/-- A text without quotes, backslashes and control characters. -/
def Text.IsClean (s : Text) : Prop :=
  ∀ c ∈ s, c ≠ CodePoint.ofChar '"' ∧ c ≠ CodePoint.ofChar '\\' ∧ 0x20 ≤ c.val

instance : DecidablePred Text.IsClean :=
  fun _ => List.decidableBAll _ _

namespace Options

variable {opts : Options} {s : Text}

/-- A string whose text derives that string. -/
def Spells (opts : Options) (s : Text) : Prop := StringText (opts.stringText s) s

/-- **Every escaped string** is read back. -/
theorem spells_of_escapeStrings (h : opts.escapeStrings) : opts.Spells s := by
  rw [Spells, stringText, if_pos h]
  exact .of_spelling fun c _ => c.spelling_escaped

/-- A string without anything to escape is read back, escaped or not. -/
theorem spells_of_isClean (h : s.IsClean) : opts.Spells s := by
  by_cases hescape : opts.escapeStrings
  · exact spells_of_escapeStrings hescape
  · have hself : ∀ c ∈ s, c.Spelling [c] := fun c hc =>
      CodePoint.spelling_self (h c hc).2.2 (h c hc).1 (h c hc).2.1
    have htext := StringText.of_spelling hself
    rw [List.flatMap_singleton'] at htext
    rwa [Spells, stringText, if_neg hescape]

/-- **Strings on one line**: all escaped ones, and those that hold no line feed. -/
theorem lineFeed_not_mem_stringText (h : opts.escapeStrings ∨ CodePoint.lineFeed ∉ s) :
    CodePoint.lineFeed ∉ opts.stringText s := by
  have hbody : CodePoint.lineFeed ∉ (if opts.escapeStrings then s.flatMap CodePoint.escaped else s)
      := by
    split_ifs with hescape
    · rw [List.mem_flatMap]
      rintro ⟨c, -, hc⟩
      exact absurd (c.isControl_escaped _ hc) (by decide)
    · exact h.resolve_left hescape
  rw [stringText, List.mem_cons, List.mem_append, List.mem_singleton]
  rintro (hquote | hmem | hquote)
  · exact absurd hquote (by decide)
  · exact hbody hmem
  · exact absurd hquote (by decide)

end Options

end JsonLayout
