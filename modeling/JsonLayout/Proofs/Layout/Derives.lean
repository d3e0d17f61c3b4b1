import JsonLayout.Proofs.AsWritten
import JsonLayout.Proofs.Layout.Format
import JsonLayout.Proofs.Layout.Strings

/-!
# The layout derives from the grammar

The line feeds and spaces of a layout are white space around its parts: a line feed behind a comma
stands before the part that follows it, and what comes before a closing bracket stands after the
last part.  So the text of a value derives the value as it is written, given that its strings are
spelled so that they are read back.

## Main results

* `exists_parts`: lines with commas between them, as parts with white space around them.
* `ValueText.layout`: the text of a value derives the value as it is written.
* `jsonText_of_format`: so does what formatting gives.
* `Json.layout_asWritten`: the value as it is written has the same text.
-/

namespace JsonLayout

/-! ### Lines as parts -/

/-- **Lines as parts.**  Each line is a part with a line feed in front of it, and what comes after
all the lines goes with the last one. -/
theorem exists_parts {α β γ : Type} {line : α → Text} {text : β → Text} {P : β → Prop} {f : α → γ}
    {g : β → γ} {tail : Text} {as : List α} (hne : as ≠ [])
    (h : ∀ a ∈ as, ∀ after, after = [] ∨ after = tail →
      ∃ b, P b ∧ g b = f a ∧ text b = CodePoint.lineFeed :: (line a ++ after)) :
    ∃ bs, bs ≠ [] ∧ (∀ b ∈ bs, P b) ∧ bs.map g = as.map f ∧
      Text.join [CodePoint.ofChar ','] (bs.map text)
        = CodePoint.lineFeed :: (Text.join ",\n" (as.map line) ++ tail) := by
  induction as with
  | nil => exact absurd rfl hne
  | cons a as ih =>
    rw [List.forall_mem_cons] at h
    rcases eq_or_ne as [] with rfl | has
    · obtain ⟨b, hb, hg, htext⟩ := h.1 tail (.inr rfl)
      refine ⟨[b], List.cons_ne_nil _ _, List.forall_mem_singleton.mpr hb, ?_, ?_⟩
      · rw [List.map_singleton, List.map_singleton, hg]
      · rw [List.map_singleton, List.map_singleton, Text.join_singleton, Text.join_singleton, htext]
    · obtain ⟨b, hb, hg, htext⟩ := h.1 [] (.inl rfl)
      obtain ⟨bs, hbs, hP, hgs, hjoin⟩ := ih has h.2
      refine ⟨b :: bs, List.cons_ne_nil _ _, List.forall_mem_cons.mpr ⟨hb, hP⟩, ?_, ?_⟩
      · rw [List.map_cons, List.map_cons, hg, hgs]
      · rw [List.map_cons, List.map_cons, Text.join_cons _ _ (by simpa using hbs),
          Text.join_cons _ _ (by simpa using has), htext, hjoin]
        simp [Text.ofString, CodePoint.lineFeed]

/-- A block of lines between two brackets is what its parts are, joined between the brackets. -/
theorem Options.block_eq_of_join {opts : Options} {depth : Int} (first last : Char)
    {lines : List Text} (hne : lines ≠ []) {t : Text}
    (h : t = CodePoint.lineFeed :: (Text.join ",\n" lines ++
      CodePoint.lineFeed :: opts.indent depth)) :
    CodePoint.ofChar first :: (t ++ [CodePoint.ofChar last])
      = opts.block depth first last lines := by
  have hlines : lines.isEmpty = false := by simpa using hne
  rw [h, block, Text.ofLines, hlines]
  simp

/-! ### White space of the layout -/

theorem Options.isJsonBlank_indent (opts : Options) (depth : Int) :
    Text.IsJsonBlank (CodePoint.lineFeed :: opts.indent depth) := by
  rw [Text.IsJsonBlank, List.forall_mem_cons]
  refine ⟨rfl, ?_⟩
  intro c hc
  rw [List.eq_of_mem_replicate hc]
  rfl

theorem Json.isJsonBlank_lineEnd (j : Json) (embedded : Bool) :
    Text.IsJsonBlank (j.lineEnd embedded) := by
  cases j with
  | array items =>
    rw [Json.lineEnd]
    cases embedded
    · exact List.forall_mem_singleton.mpr rfl
    · exact List.forall_mem_nil _
  | _ => exact List.forall_mem_nil _

/-! ### Values -/

variable {opts : Options}

/-- **The text of a value** derives the value as it is written. -/
theorem ValueText.layout {j : Json} (hs : ∀ s ∈ j.strings, opts.Spells s) (depth : Int) :
    ValueText (j.layout opts depth) j.asWritten := by
  have hnil : Text.IsJsonBlank [] := List.forall_mem_nil _
  have hblank : ∀ {depth : Int} {after : Text},
      after = [] ∨ after = CodePoint.lineFeed :: opts.indent depth → after.IsJsonBlank := by
    rintro depth after (rfl | rfl)
    · exact hnil
    · exact opts.isJsonBlank_indent depth
  induction j using Json.induction generalizing depth with
  | null => exact .null
  | bool b =>
    cases b
    · exact .false
    · exact .true
  | number n => exact .number n.numberText_text
  | string s => exact .string (hs s (List.mem_singleton_self s))
  | array items ih =>
    rw [Json.forall_strings_array] at hs
    rw [Json.layout, itemLines_eq_map, Json.asWritten_array]
    rcases eq_or_ne items [] with rfl | hne
    · exact .emptyArray (opts.isJsonBlank_indent depth)
    · have hpart : ∀ j ∈ items, ∀ after,
          after = [] ∨ after = CodePoint.lineFeed :: opts.indent depth →
          ∃ p : Padded Json, ValueText p.body p.value ∧ p.value = j.asWritten ∧
            p.text = CodePoint.lineFeed :: (j.itemLine opts (depth + 1) ++ after) := by
        intro j hj after hafter
        refine ⟨⟨CodePoint.lineFeed :: opts.indent (depth + 1), j.layout opts (depth + 1), after,
          j.asWritten, opts.isJsonBlank_indent _, hblank hafter⟩, ih j hj (hs j hj) _, rfl, ?_⟩
        simp [Padded.text, Json.itemLine]
      obtain ⟨parts, hpartsne, hvalues, hmap, hjoin⟩ := exists_parts hne hpart
      rw [← Options.block_eq_of_join _ _ (by simpa using hne) hjoin, ← hmap]
      exact .array hpartsne hvalues
  | object members ih =>
    rw [Json.forall_strings_object] at hs
    rw [Json.layout, memberLines_eq_map, Json.asWritten_object]
    rcases eq_or_ne members [] with rfl | hne
    · exact .emptyObject (opts.isJsonBlank_indent depth)
    · have hpart : ∀ m ∈ members, ∀ after,
          after = [] ∨ after = CodePoint.lineFeed :: opts.indent depth →
          ∃ p : Padded Text × Padded Json,
            (StringText p.1.body p.1.value ∧ ValueText p.2.body p.2.value) ∧
            (p.1.value, p.2.value) = (m.1, m.2.asWritten) ∧
            memberText p
              = CodePoint.lineFeed :: (Json.memberLine opts (depth + 1) m ++ after) := by
        intro m hm after hafter
        have hspace : Text.IsJsonBlank [CodePoint.ofChar ' '] := List.forall_mem_singleton.mpr rfl
        refine ⟨(⟨CodePoint.lineFeed :: opts.indent (depth + 1), opts.stringText m.1, [], m.1,
            opts.isJsonBlank_indent _, hnil⟩,
          ⟨[CodePoint.ofChar ' '], m.2.layout opts (depth + 1), after, m.2.asWritten, hspace,
            hblank hafter⟩), ⟨(hs m hm).1, ih m hm (hs m hm).2 _⟩, rfl, ?_⟩
        simp [memberText, Padded.text, Json.memberLine, Text.ofString]
      obtain ⟨parts, hpartsne, hparts, hmap, hjoin⟩ := exists_parts hne hpart
      rw [← Options.block_eq_of_join _ _ (by simpa using hne) hjoin, ← hmap]
      exact .object hpartsne (fun p hp => (hparts p hp).1) fun p hp => (hparts p hp).2

/-- **What formatting gives** derives the value as it is written. -/
theorem jsonText_of_format {j : Json} (hs : ∀ s ∈ j.strings, opts.Spells s) {t : Text}
    (h : opts.format j.toDatum = .ok t) : JsonText t j.asWritten := by
  obtain ⟨-, rfl⟩ := Options.format_eq_ok_iff.mp h
  exact ⟨⟨[], j.layout opts 0, j.lineEnd false, j.asWritten, List.forall_mem_nil _,
    j.isJsonBlank_lineEnd false⟩, .layout hs 0, rfl, rfl⟩

/-! ### Formatting what was read back -/

/-- **The value as it is written has the same text.** -/
theorem Json.layout_asWritten (j : Json) (depth : Int) :
    j.asWritten.layout opts depth = j.layout opts depth := by
  induction j using Json.induction generalizing depth with
  | number n => exact n.text_asWritten
  | array items ih =>
    have hlines : ∀ j ∈ items, Json.itemLine opts (depth + 1) j.asWritten
        = Json.itemLine opts (depth + 1) j := by
      intro j hj
      rw [itemLine, ih j hj, itemLine]
    rw [asWritten_array, layout, layout, itemLines_eq_map, itemLines_eq_map, List.map_map]
    exact congrArg _ (List.map_congr_left hlines)
  | object members ih =>
    have hlines : ∀ m ∈ members, Json.memberLine opts (depth + 1) (m.1, m.2.asWritten)
        = Json.memberLine opts (depth + 1) m := by
      intro m hm
      rw [memberLine, ih m hm, memberLine]
    rw [asWritten_object, layout, layout, memberLines_eq_map, memberLines_eq_map, List.map_map]
    exact congrArg _ (List.map_congr_left hlines)
  | _ => rfl

theorem Json.Writable.asWritten {j : Json} (h : j.Writable opts) : j.asWritten.Writable opts := by
  intro n hn
  rw [numbers_asWritten, List.mem_map] at hn
  obtain ⟨m, hm, rfl⟩ := hn
  exact (h m hm).asWritten

theorem format_asWritten {j : Json} {t : Text} (h : opts.format j.toDatum = .ok t) :
    opts.format j.asWritten.toDatum = .ok t := by
  obtain ⟨⟨hw, hf⟩, rfl⟩ := Options.format_eq_ok_iff.mp h
  refine Options.format_eq_ok_iff.mpr ⟨⟨hw.asWritten, ?_⟩, ?_⟩
  · rwa [Options.Fits, Json.nesting_asWritten]
  · rw [j.layout_asWritten]
    cases j <;> rfl

end JsonLayout
