import JsonLayout.Proofs.Reading.Accepts
import JsonLayout.Proofs.Text.Lines

/-!
# Where values begin and end

A value begins with one of a few characters and ends with one of a few, and none of them is blank,
not even in the wider sense of Unicode.  So stripping a text takes off the white space around its
value and leaves the value as it is.

## Main definitions

* `CodePoint.startsValue`, `CodePoint.endsValue`: the first and the last characters of values.

## Main results

* `ValueText.exists_cons_startsValue`, `ValueText.exists_concat_endsValue`: the two ends of a value.
* `readText_strip`: a text that is read gives the same value without the blanks around it.
-/

namespace JsonLayout

open Text

/-! ### The two ends -/

namespace CodePoint

/-- The characters that a value can begin with. -/
def startsValue (c : CodePoint) : Bool :=
  c.isDigit || [ofChar '"', ofChar '-', ofChar '[', ofChar '{', ofChar 'n', ofChar 't', ofChar 'f',
    ofChar 'N', ofChar 'I'].contains c

/-- The characters that a value can end with. -/
def endsValue (c : CodePoint) : Bool :=
  c.isDigit || [ofChar '"', ofChar ']', ofChar '}', ofChar 'l', ofChar 'e', ofChar 'N',
    ofChar 'y'].contains c

variable {c : CodePoint}

theorem isBlank_of_isDigit (h : c.isDigit) : c.isBlank = false := by
  simp only [isDigit, Bool.and_eq_true, decide_eq_true_eq] at h
  simp only [isBlank, Bool.or_eq_false_iff, Bool.and_eq_false_iff, decide_eq_false_iff_not,
    beq_eq_false_iff_ne]
  omega

theorem startsValue_of_isDigit (h : c.isDigit) : c.startsValue := by
  rw [startsValue, h, Bool.true_or]

theorem endsValue_of_isDigit (h : c.isDigit) : c.endsValue := by
  rw [endsValue, h, Bool.true_or]

/-- The ends of a value are not blank. -/
theorem isBlank_of_startsValue (h : c.startsValue) : c.isBlank = false := by
  rw [startsValue, Bool.or_eq_true, List.contains_iff_mem] at h
  rcases h with h | h
  · exact isBlank_of_isDigit h
  · revert c
    decide

theorem isBlank_of_endsValue (h : c.endsValue) : c.isBlank = false := by
  rw [endsValue, Bool.or_eq_true, List.contains_iff_mem] at h
  rcases h with h | h
  · exact isBlank_of_isDigit h
  · revert c
    decide

/-- Blanks do not go on with a number. -/
theorem isNumberPart_of_isBlank (h : c.isBlank) : c.isNumberPart = false := by
  have hdigit : c.isDigit = false := by
    by_contra hd
    rw [isBlank_of_isDigit (Bool.not_eq_false _ ▸ hd)] at h
    cases h
  have hne : ∀ d : CodePoint, d.isBlank = false → c ≠ d := fun d hd => ne_of_class h hd
  simp only [isNumberPart, hdigit, hne (ofChar '.') rfl, hne (ofChar 'e') rfl,
    hne (ofChar 'E') rfl, decide_false, Bool.or_false]

end CodePoint

/-- Blanks in front of what does not go on with a number do not either. -/
theorem Text.beginsOutside_append_of_isBlank {w t : Text} (hw : ∀ c ∈ w, c.isBlank)
    (ht : BeginsOutside CodePoint.isNumberPart t) :
    BeginsOutside CodePoint.isNumberPart (w ++ t) := by
  rcases w with _ | ⟨c, w⟩
  · exact ht
  · exact beginsOutside_cons_iff.mpr (CodePoint.isNumberPart_of_isBlank (hw c List.mem_cons_self))

/-- What begins as a value does begins with no text that does not. -/
theorem Text.startsWith_of_startsValue {c d : CodePoint} (hc : c.startsValue)
    (hd : d.startsValue = false) (t start : Text) : startsWith (c :: t) (d :: start) = false := by
  have hne : d ≠ c := by
    rintro rfl
    rw [hd] at hc
    cases hc
  rw [startsWith, after?, if_neg hne]
  rfl

theorem ValueText.exists_cons_startsValue {t : Text} {j : Json} (h : ValueText t j) :
    ∃ c u, t = c :: u ∧ c.startsValue := by
  cases h with
  | number h =>
    cases h with
    | literal h =>
      obtain ⟨c, u, rfl, hc | rfl⟩ := h.exists_cons
      · exact ⟨c, u, rfl, CodePoint.startsValue_of_isDigit hc⟩
      · exact ⟨_, u, rfl, rfl⟩
    | nan | infinity | minusInfinity => exact ⟨_, _, rfl, rfl⟩
  | string h =>
    cases h
    exact ⟨_, _, rfl, rfl⟩
  | _ => exact ⟨_, _, rfl, rfl⟩

/-- A text that ends with a digit. -/
private def EndsInDigit (t : Text) : Prop := ∃ u c, t = u ++ [c] ∧ CodePoint.isDigit c

private theorem EndsInDigit.append {t : Text} (h : EndsInDigit t) (s : Text) :
    EndsInDigit (s ++ t) := by
  obtain ⟨u, c, rfl, hc⟩ := h
  exact ⟨s ++ u, c, (List.append_assoc ..).symm, hc⟩

private theorem Text.IsDigits.endsInDigit {ds : Text} (h : ds.IsDigits) : EndsInDigit ds := by
  refine ⟨ds.dropLast, ds.getLast h.1, (List.dropLast_append_getLast h.1).symm, ?_⟩
  exact h.2 _ (List.getLast_mem h.1)

private theorem LiteralText.endsInDigit {t : Text} {l : NumberLiteral} (h : LiteralText t l) :
    EndsInDigit t := by
  obtain @⟨negative, whole, f, e, fraction, exponent, hw, hf, he⟩ := h
  cases he with
  | some mark sign digits =>
    rw [← List.singleton_append]
    exact ((digits.endsInDigit.append _).append _).append _
  | none =>
    rw [List.append_nil]
    cases hf with
    | some digits =>
      rw [← List.singleton_append]
      exact (digits.endsInDigit.append _).append _
    | none =>
      rw [List.append_nil]
      exact hw.1.endsInDigit.append _

theorem ValueText.exists_concat_endsValue {t : Text} {j : Json} (h : ValueText t j) :
    ∃ u c, t = u ++ [c] ∧ c.endsValue := by
  cases h with
  | number h =>
    cases h with
    | literal h =>
      obtain ⟨u, c, rfl, hc⟩ := h.endsInDigit
      exact ⟨u, c, rfl, CodePoint.endsValue_of_isDigit hc⟩
    | nan => exact ⟨"Na", CodePoint.ofChar 'N', rfl, rfl⟩
    | infinity => exact ⟨"Infinit", CodePoint.ofChar 'y', rfl, rfl⟩
    | minusInfinity => exact ⟨"-Infinit", CodePoint.ofChar 'y', rfl, rfl⟩
  | null => exact ⟨"nul", CodePoint.ofChar 'l', rfl, rfl⟩
  | true => exact ⟨"tru", CodePoint.ofChar 'e', rfl, rfl⟩
  | false => exact ⟨"fals", CodePoint.ofChar 'e', rfl, rfl⟩
  | string h =>
    cases h
    exact ⟨_ :: _, _, rfl, rfl⟩
  | _ => exact ⟨_ :: _, _, rfl, rfl⟩

/-! ### Stripping -/

/-- Stripping a text takes off the white space around its value. -/
theorem Padded.strip_text {p : Padded Json} (h : ValueText p.body p.value) :
    p.text.strip = p.body := by
  obtain ⟨c, u, hbody, hc⟩ := h.exists_cons_startsValue
  obtain ⟨v, d, hbody', hd⟩ := h.exists_concat_endsValue
  refine strip_padded (fun c hc => CodePoint.isBlank_of_isJsonBlank (p.isJsonBlank_before c hc))
    (fun c hc => CodePoint.isBlank_of_isJsonBlank (p.isJsonBlank_after c hc)) ?_ ?_
  · rw [hbody]
    rintro _ ⟨⟩
    exact CodePoint.isBlank_of_startsValue hc
  · rw [hbody', List.getLast?_concat]
    rintro _ ⟨⟩
    exact CodePoint.isBlank_of_endsValue hd

/-- A value with no white space around it. -/
theorem ValueText.jsonText {t : Text} {j : Json} (h : ValueText t j) : JsonText t j :=
  ⟨⟨[], t, [], j, List.forall_mem_nil _, List.forall_mem_nil _⟩, h, List.append_nil t, rfl⟩

/-- **Stripping** does not change what is read. -/
theorem readText_strip {t : Text} {j : Json} (h : readText t = .ok j) :
    readText t.strip = .ok j := by
  obtain ⟨⟨p, hp, rfl, rfl⟩, hj⟩ := readText_eq_ok_iff.mp h
  rw [Padded.strip_text hp]
  exact readText_eq_ok_iff.mpr ⟨hp.jsonText, hj⟩

/-- A text that is read begins as a value does behind its blanks. -/
theorem exists_strip_eq_cons_of_readText {t : Text} {j : Json} (h : readText t = .ok j) :
    ∃ c u, t.strip = c :: u ∧ c.startsValue := by
  obtain ⟨⟨p, hp, rfl, rfl⟩, -⟩ := readText_eq_ok_iff.mp h
  rw [Padded.strip_text hp]
  exact hp.exists_cons_startsValue

/-- The white space in front of a value is all that is blank there. -/
theorem exists_dropWhile_isBlank_of_readText {t : Text} {j : Json} (h : readText t = .ok j) :
    ∃ c u, t.dropWhile CodePoint.isBlank = c :: u ∧ c.startsValue ∧ readText (c :: u) = .ok j := by
  obtain ⟨⟨p, hp, rfl, rfl⟩, hj⟩ := readText_eq_ok_iff.mp h
  obtain ⟨c, u, hbody, hc⟩ := hp.exists_cons_startsValue
  have hbefore : ∀ d ∈ p.before, d.isBlank :=
    fun d hd => CodePoint.isBlank_of_isJsonBlank (p.isJsonBlank_before d hd)
  refine ⟨c, u ++ p.after, ?_, hc, ?_⟩
  · rw [Padded.text, List.append_assoc, List.dropWhile_append_of_pos hbefore, hbody,
      List.cons_append, List.dropWhile_cons_of_neg (by simp [CodePoint.isBlank_of_startsValue hc])]
  · refine readText_eq_ok_iff.mpr ⟨?_, hj⟩
    exact ⟨⟨[], p.body, p.after, p.value, List.forall_mem_nil _, p.isJsonBlank_after⟩, hp,
      by rw [Padded.text, hbody]; rfl, rfl⟩

/-- A text that is read is not blank. -/
theorem ne_nil_of_readText {t : Text} {j : Json} (h : readText t = .ok j) : t ≠ [] := by
  rintro rfl
  obtain ⟨c, u, hdrop, -⟩ := exists_dropWhile_isBlank_of_readText h
  cases hdrop

end JsonLayout
