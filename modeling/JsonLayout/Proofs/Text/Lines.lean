import JsonLayout.Proofs.Text
import JsonLayout.Text.Blank
import JsonLayout.Text.Lines
import Mathlib.Data.List.DropRight

/-!
# Lines and blanks

A text is the same as its lines: cutting it and joining the lines again are inverse to each other.
Stripping takes blanks off both ends and nothing else.

## Main results

* `Text.join_splitLines`, `Text.splitLines_join`: a text and its lines.
* `Text.splitLines_append_cons`: the lines of two texts with a line feed between them.
* `Text.mem_withFinalLineFeed_iff`: what is in a text with a final line feed.
* `Text.exists_dropWhile_isBlank`, `Text.strip_padded`: what stripping takes off.
-/

namespace JsonLayout.Text

/-! ### Lines -/

theorem splitLines_cons_lineFeed (t : Text) :
    splitLines (CodePoint.lineFeed :: t) = [] :: splitLines t := if_pos rfl

/-- A final line feed is the only character that is added. -/
theorem mem_withFinalLineFeed_iff {c : CodePoint} {t : Text} :
    c ∈ t.withFinalLineFeed ↔ c ∈ t ∨ c = CodePoint.lineFeed := by
  rw [withFinalLineFeed]
  split_ifs with hlast
  · refine (or_iff_left_of_imp ?_).symm
    rintro rfl
    exact List.mem_of_getLast? hlast
  · rw [List.mem_append, List.mem_singleton]

theorem exists_splitLines (t : Text) : ∃ line lines, splitLines t = line :: lines := by
  induction t with
  | nil => exact ⟨[], [], rfl⟩
  | cons c t ih =>
    obtain ⟨line, lines, h⟩ := ih
    by_cases hc : c = CodePoint.lineFeed
    · exact ⟨[], _, hc ▸ splitLines_cons_lineFeed t⟩
    · exact ⟨c :: line, lines, (if_neg hc).trans (by rw [h])⟩

theorem splitLines_cons {c : CodePoint} (hc : c ≠ CodePoint.lineFeed) {t line : Text}
    {lines : List Text} (h : splitLines t = line :: lines) :
    splitLines (c :: t) = (c :: line) :: lines :=
  (if_neg hc).trans (by rw [h])

/-- **The lines of a text**, joined again. -/
theorem join_splitLines (t : Text) : join [CodePoint.lineFeed] (splitLines t) = t := by
  induction t with
  | nil => rfl
  | cons c t ih =>
    obtain ⟨line, lines, h⟩ := exists_splitLines t
    rw [h] at ih
    by_cases hc : c = CodePoint.lineFeed
    · have hne : splitLines t ≠ [] := by
        rw [h]
        exact List.cons_ne_nil _ _
      rw [hc, splitLines_cons_lineFeed, join_cons _ _ hne, h, ih]
      rfl
    · rw [splitLines_cons hc h]
      rcases eq_or_ne lines [] with rfl | hlines
      · rw [join_singleton] at ih ⊢
        rw [ih]
      · rw [join_cons _ _ hlines] at ih ⊢
        rw [List.cons_append, ih]

/-- **A text is cut at each of its line feeds**, whatever lines there are around it. -/
theorem splitLines_append_cons (t u : Text) :
    splitLines (t ++ CodePoint.lineFeed :: u) = splitLines t ++ splitLines u := by
  induction t with
  | nil => exact splitLines_cons_lineFeed u
  | cons c t ih =>
    obtain ⟨line, lines, h⟩ := exists_splitLines t
    by_cases hc : c = CodePoint.lineFeed
    · rw [hc, List.cons_append, splitLines_cons_lineFeed, splitLines_cons_lineFeed, ih,
        List.cons_append]
    · rw [h, List.cons_append] at ih
      rw [List.cons_append, splitLines_cons hc ih, splitLines_cons hc h, List.cons_append]

theorem splitLines_of_not_mem {line : Text} (hline : CodePoint.lineFeed ∉ line) :
    splitLines line = [line] := by
  induction line with
  | nil => rfl
  | cons c line ih =>
    rw [List.mem_cons, not_or] at hline
    exact splitLines_cons (Ne.symm hline.1) (ih hline.2)

/-- A line without a line feed, before the lines of what comes after it. -/
theorem splitLines_append {line : Text} (hline : CodePoint.lineFeed ∉ line) (t : Text) :
    splitLines (line ++ CodePoint.lineFeed :: t) = line :: splitLines t := by
  rw [splitLines_append_cons, splitLines_of_not_mem hline, List.singleton_append]

/-- **Lines joined**, cut again. -/
theorem splitLines_join {lines : List Text} (hne : lines ≠ [])
    (hlines : ∀ line ∈ lines, CodePoint.lineFeed ∉ line) :
    splitLines (join [CodePoint.lineFeed] lines) = lines := by
  induction lines with
  | nil => exact absurd rfl hne
  | cons line lines ih =>
    rw [List.forall_mem_cons] at hlines
    rcases eq_or_ne lines [] with rfl | h
    · rw [join_singleton, splitLines_of_not_mem hlines.1]
    · rw [join_cons _ _ h, List.singleton_append, splitLines_append hlines.1, ih h hlines.2]

/-! ### Blanks -/

theorem strip_eq_nil_iff {t : Text} : t.strip = [] ↔ ∀ c ∈ t, c.isBlank := by
  have hright : t.strip = (t.dropWhile CodePoint.isBlank).rdropWhile CodePoint.isBlank := rfl
  rw [hright, List.rdropWhile_eq_nil_iff]
  constructor
  · intro h c hc
    rw [← List.takeWhile_append_dropWhile (p := CodePoint.isBlank) (l := t),
      List.mem_append] at hc
    exact hc.elim List.mem_takeWhile_imp (h c)
  · exact fun h c hc => h c ((List.dropWhile_sublist _).mem hc)

/-- Behind the blanks in front, stripping takes off blanks at the end. -/
theorem exists_dropWhile_isBlank (t : Text) :
    ∃ w : Text, (∀ c ∈ w, c.isBlank) ∧ t.dropWhile CodePoint.isBlank = t.strip ++ w :=
  ⟨(t.dropWhile CodePoint.isBlank).rtakeWhile CodePoint.isBlank,
    fun _ hc => List.mem_rtakeWhile_imp hc, List.rdropWhile_append_rtakeWhile.symm⟩

theorem mem_of_mem_strip {c : CodePoint} {t : Text} (h : c ∈ t.strip) : c ∈ t := by
  obtain ⟨w, -, hw⟩ := exists_dropWhile_isBlank t
  refine (List.dropWhile_sublist CodePoint.isBlank).mem ?_
  rw [hw]
  exact List.mem_append_left w h

theorem strip_strip (t : Text) : t.strip.strip = t.strip := by
  obtain ⟨w, -, hw⟩ := exists_dropWhile_isBlank t
  have hfirst : t.strip.dropWhile CodePoint.isBlank = t.strip := by
    rcases hs : t.strip with _ | ⟨c, u⟩
    · rfl
    · rw [hs] at hw
      refine List.dropWhile_cons_of_neg ?_
      have hne : t.dropWhile CodePoint.isBlank ≠ [] := by rw [hw]; exact List.cons_ne_nil _ _
      have hhead := List.head_dropWhile_not CodePoint.isBlank hne
      simp only [hw] at hhead
      simpa using hhead
  exact (congrArg stripRight hfirst).trans (List.rdropWhile_idempotent CodePoint.isBlank _)

/-- Stripping takes off all the blanks around a text that begins and ends with something else. -/
theorem strip_padded {before t after : Text} (hb : ∀ c ∈ before, c.isBlank)
    (ha : ∀ c ∈ after, c.isBlank) (hfirst : ∀ c ∈ t.head?, c.isBlank = false)
    (hlast : ∀ c ∈ t.getLast?, c.isBlank = false) : (before ++ t ++ after).strip = t := by
  rcases eq_or_ne t [] with rfl | hne
  · rw [List.append_nil, strip_eq_nil_iff]
    exact List.forall_mem_append.mpr ⟨hb, ha⟩
  · obtain ⟨c, u, rfl⟩ := List.exists_cons_of_ne_nil hne
    have hc := hfirst c rfl
    have hdrop : (before ++ (c :: u) ++ after).dropWhile CodePoint.isBlank = c :: u ++ after := by
      rw [List.append_assoc, List.dropWhile_append_of_pos hb, List.cons_append,
        List.dropWhile_cons_of_neg (by simp [hc])]
    have hlast' : (c :: u).rdropWhile CodePoint.isBlank = c :: u := by
      rw [List.rdropWhile_eq_self_iff]
      intro h
      rw [hlast _ (List.getLast?_eq_some_getLast h)]
      exact Bool.false_ne_true
    have hright : (c :: u ++ after).reverse.dropWhile CodePoint.isBlank
        = (c :: u).reverse.dropWhile CodePoint.isBlank := by
      rw [List.reverse_append, List.dropWhile_append_of_pos]
      exact fun d hd => ha d (List.mem_reverse.mp hd)
    calc (before ++ (c :: u) ++ after).strip
        = ((c :: u ++ after).reverse.dropWhile CodePoint.isBlank).reverse :=
          congrArg stripRight hdrop
      _ = (c :: u).rdropWhile CodePoint.isBlank := by rw [hright]; rfl
      _ = c :: u := hlast'

end JsonLayout.Text
