import JsonLayout.Text.CodePoint
import Mathlib.Logic.Basic

/-!
# Joined texts and classes of characters

## Main results

* `CodePoint.ne_of_class`: characters that a class tells apart.
* `Text.join_cons`, `Text.exists_join_cons`: the first of several texts, and what comes after it.
* `Text.length_le_join`: no part is longer than the whole.
-/

namespace JsonLayout

/-- Characters that a class tells apart are not the same. -/
theorem CodePoint.ne_of_class {p : CodePoint → Bool} {c d : CodePoint} (hc : p c)
    (hd : p d = false) : c ≠ d := by
  rintro rfl
  rw [hc] at hd
  cases hd

namespace Text

theorem join_singleton (separator t : Text) : join separator [t] = t := by
  simp [Text.join]

theorem join_cons (separator t : Text) {ts : List Text} (h : ts ≠ []) :
    join separator (t :: ts) = t ++ (separator ++ join separator ts) := by
  obtain ⟨u, us, rfl⟩ := List.exists_cons_of_ne_nil h
  simp [Text.join]

theorem exists_join_cons (separator t : Text) (ts : List Text) :
    ∃ u, join separator (t :: ts) = t ++ u := by
  rcases eq_or_ne ts [] with rfl | h
  · exact ⟨[], by rw [join_singleton, List.append_nil]⟩
  · exact ⟨_, join_cons separator t h⟩

theorem length_le_join (separator : Text) {t : Text} {ts : List Text} (h : t ∈ ts) :
    t.length ≤ (join separator ts).length := by
  induction ts with
  | nil => exact absurd h (List.not_mem_nil)
  | cons u ts ih =>
    rcases eq_or_ne ts [] with rfl | hts
    · obtain rfl := List.mem_singleton.mp h
      exact Nat.le_of_eq (congrArg List.length (join_singleton separator t)).symm
    · rw [join_cons _ _ hts, List.length_append, List.length_append]
      rcases List.mem_cons.mp h with rfl | h
      · exact Nat.le_add_right _ _
      · have := ih h
        omega

end Text

end JsonLayout
