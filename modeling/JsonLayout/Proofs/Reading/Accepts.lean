import JsonLayout.Datum.Decide
import JsonLayout.Proofs.Reading.Sound

/-!
# Reading accepts exactly the grammar

Soundness and completeness of the reader, put together.  What is read is what derives from the
grammar, but for the two limits: on nesting and on the digits of an integer.  A text that is short
cannot reach them.

## Main results

* `readText_eq_ok_iff`: the values that a text gives are those it derives within the limits.
* `readText_accepts_grammar`: with no limit in reach, the values that a text gives are those it
  derives, and without any there is an error.
* `JsonText.readable_of_length_le`: a short text is within the limits.
-/

namespace JsonLayout

open Text

/-- **What is read** is what derives from the grammar within the limits. -/
theorem readText_eq_ok_iff {t : Text} {j : Json} :
    readText t = .ok j ↔ JsonText t j ∧ j.Readable nestingLimit := by
  constructor
  · intro h
    exact ⟨jsonText_of_readText h, readable_of_readText h⟩
  · rintro ⟨h, hj⟩
    exact h.readText_eq_ok hj

/-- White space behind a text changes nothing in what is read. -/
theorem readText_append_blank {t w : Text} {j : Json} (h : readText t = .ok j)
    (hw : w.IsJsonBlank) : readText (t ++ w) = .ok j := by
  rw [readText_eq_ok_iff] at h ⊢
  obtain ⟨⟨p, hp, rfl, rfl⟩, hreadable⟩ := h
  have hafter : (p.after ++ w).IsJsonBlank := List.forall_mem_append.mpr ⟨p.isJsonBlank_after, hw⟩
  refine ⟨⟨⟨p.before, p.body, p.after ++ w, p.value, p.isJsonBlank_before, hafter⟩, hp, ?_, rfl⟩,
    hreadable⟩
  simp [Padded.text]

/-! ### Short texts -/

theorem Padded.length_body_le {α : Type} (p : Padded α) : p.body.length ≤ p.text.length := by
  rw [Padded.text, List.length_append, List.length_append]
  omega

/-- An integer has no more digits than its text has characters. -/
theorem NumberText.withinDigitLimit {t : Text} {n : Number} (h : NumberText t n)
    (ht : t.length ≤ Decimal.digitLimit) : n.WithinDigitLimit := by
  cases h with
  | nan | infinity | minusInfinity => trivial
  | @literal t l h =>
    by_cases hi : l.isInteger
    · refine (NumberLiteral.length_whole_le_iff h hi).mp (le_trans ?_ ht)
      cases h
      simp only [List.length_append]
      omega
    · rw [NumberLiteral.number, if_neg hi]
      trivial

/-- A value is nested no deeper than its text is long, and its integers are no longer. -/
theorem ValueText.readable_of_length_le {t : Text} {j : Json} (h : ValueText t j) {room : Nat}
    (ht : t.length ≤ room) (hroom : room ≤ Decimal.digitLimit) : j.Readable room := by
  induction h generalizing room with
  | null | true | false | string => exact ⟨Nat.zero_le _, List.forall_mem_nil _⟩
  | number h =>
    refine ⟨Nat.zero_le _, ?_⟩
    rw [Json.numbers, List.forall_mem_singleton]
    exact h.withinDigitLimit (by omega)
  | emptyArray | emptyObject =>
    rw [List.length_cons] at ht
    have hpos : 1 ≤ room := by omega
    exact ⟨hpos, List.forall_mem_nil _⟩
  | @array parts _ _ ih =>
    rw [List.length_cons, List.length_append] at ht
    obtain ⟨r, rfl⟩ : ∃ r, room = r + 1 := ⟨room - 1, by omega⟩
    rw [Json.readable_array_iff, List.forall_mem_map]
    intro p hp
    have hlen := Text.length_le_join [CodePoint.ofChar ',']
      (List.mem_map_of_mem (f := Padded.text) hp)
    have hbody := p.length_body_le
    exact ih p hp (by omega) (by omega)
  | @object parts _ _ _ ih =>
    rw [List.length_cons, List.length_append] at ht
    obtain ⟨r, rfl⟩ : ∃ r, room = r + 1 := ⟨room - 1, by omega⟩
    rw [Json.readable_object_iff, List.forall_mem_map]
    intro p hp
    have hlen := Text.length_le_join [CodePoint.ofChar ',']
      (List.mem_map_of_mem (f := memberText) hp)
    have hmember : p.2.text.length ≤ (memberText p).length := by
      rw [memberText, List.length_append, List.length_cons]
      omega
    have hbody := p.2.length_body_le
    exact ih p hp (by omega) (by omega)

theorem JsonText.readable_of_length_le {t : Text} {j : Json} (h : JsonText t j) {room : Nat}
    (ht : t.length ≤ room) (hroom : room ≤ Decimal.digitLimit) : j.Readable room := by
  obtain ⟨p, hp, rfl, rfl⟩ := h
  have hbody := p.length_body_le
  exact hp.readable_of_length_le (by omega) hroom

/-! ### Acceptance -/

/-- **Reading accepts exactly its grammar.**  Of a text in which containers are nested at most 900
deep and no integer has more digits than are read, exactly the values it derives are read; if it
derives none, there is an error. -/
theorem readText_accepts_grammar (t : Text)
    (hlimits : ∀ j, JsonText t j → j.nesting ≤ 900 ∧ ∀ n ∈ j.numbers, n.WithinDigitLimit) :
    (∀ j, readText t = .ok j ↔ JsonText t j) ∧
      ((∀ j, ¬ JsonText t j) → ∃ e, readText t = .error e) := by
  constructor
  · intro j
    rw [readText_eq_ok_iff]
    refine ⟨And.left, fun h => ⟨h, ?_⟩⟩
    obtain ⟨hnest, hnum⟩ := hlimits j h
    exact ⟨hnest.trans (by decide), hnum⟩
  · intro hnone
    cases h : readText t with
    | error e => exact ⟨e, rfl⟩
    | ok j => exact absurd (jsonText_of_readText h) (hnone j)

/-- A pair of surrogates, a repeated key, and numbers of all kinds. -/
theorem jsonText_pair_and_repeated_key :
    JsonText "\x7b\"\\ud83d\\ude00\": [NaN, -0.5e1], \"a\" :1,\"a\":\x7b \x7d \x7d"
      (.object [([⟨0x1F600, by decide⟩], .array [.number (.double .nan),
          .number (.double (.ofDecimal true ⟨5, 0⟩))]),
        ("a", .number (.int 1)), ("a", .object [])]) :=
  ((readText_accepts_grammar _ fun _ h =>
    h.readable_of_length_le (by decide) (by decide)).1 _).mp (by decide +kernel)

end JsonLayout
