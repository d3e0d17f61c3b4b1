import JsonLayout.Proofs.RoundTrip
import JsonLayout.Proofs.Woven

/-!
# Round trips without escapes

Strings that are written as they are can reshape a text: a quote ends a string early, a backslash
takes the quote behind it for itself.  Several strings can conspire, so nothing can be said of one
of them alone.  But the whole text can be counted.

The text has the strings as they are between its quotes, and, if it is read back as an equal value,
bodies that stand for the same strings.  A body has at least as many backslashes as what it stands
for, and the two sums are equal, so each body has just as many.  That leaves no quote anywhere: one
in a string costs its body a backslash.  Then the text can be cut at its quotes in one way only, so
each string is its own body, and what stands for itself as a whole has no escape in it.

## Main results

* `BodyText.count_le`, `BodyText.isClean`: what a body costs, and a body that stands for itself.
* `isClean_of_readText`: a value that survives has only clean strings.
* `readText_format_unescaped_iff`: which values survive.
-/

namespace JsonLayout

/-! ### What a body costs -/

namespace StringUnit

/-- A pair of surrogates, and what it stands for, are beyond the characters of JSON itself. -/
theorem count_joined {c : CodePoint} (hc : c.val < 0xD800) (us : List StringUnit) :
    (joined us).count c = (us.map point).count c := by
  have hne : ∀ {p : CodePoint}, 0xD800 ≤ p.val → p ≠ c := by
    rintro p hp rfl
    omega
  induction us using joined.induct with
  | case1 => rfl
  | case2 u => rfl
  | case3 u v us hpair ih =>
    have hsurrogates : 0xD800 ≤ u.point.val ∧ 0xD800 ≤ v.point.val := by
      simp only [isPair, Bool.and_eq_true, CodePoint.isHighSurrogate, CodePoint.isLowSurrogate,
        decide_eq_true_eq] at hpair
      omega
    have hjoined : 0xD800 ≤ (u.point.joinSurrogates v.point).val := by
      show 0xD800 ≤ 0x10000 + u.point.val % 0x400 * 0x400 + v.point.val % 0x400
      omega
    rw [joined, if_pos hpair, List.count_cons_of_ne (hne hjoined), ih, List.map_cons, List.map_cons,
      List.count_cons_of_ne (hne hsurrogates.1), List.count_cons_of_ne (hne hsurrogates.2)]
  | case4 u v us hpair ih =>
    rw [joined, if_neg hpair, List.count_cons, ih]
    exact List.count_cons.symm

theorem length_joined_le (us : List StringUnit) : (joined us).length ≤ us.length := by
  induction us using joined.induct with
  | case1 => exact Nat.le_refl _
  | case2 u => exact Nat.le_refl _
  | case3 u v us hpair ih =>
    rw [joined, if_pos hpair, List.length_cons, List.length_cons, List.length_cons]
    omega
  | case4 u v us hpair ih =>
    rw [joined, if_neg hpair, List.length_cons, List.length_cons]
    omega

end StringUnit

/-- A hexadecimal digit is neither a quote nor a backslash. -/
theorem CodePoint.ne_of_hexValue? {c : CodePoint} {n : Nat} (h : c.hexValue? = some n) :
    c ≠ CodePoint.ofChar '"' ∧ c ≠ CodePoint.ofChar '\\' := by
  constructor
  · rintro rfl
    cases h
  · rintro rfl
    cases h

/-- What stands behind the backslash of a numbered escape. -/
theorem isBare_number {a b c d : CodePoint} {w x y z : Nat} (ha : a.hexValue? = some w)
    (hb : b.hexValue? = some x) (hc : c.hexValue? = some y) (hd : d.hexValue? = some z) :
    Text.IsBare [CodePoint.ofChar 'u', a, b, c, d] := by
  simp only [Text.IsBare, List.forall_mem_cons]
  exact ⟨by decide, CodePoint.ne_of_hexValue? ha, CodePoint.ne_of_hexValue? hb,
    CodePoint.ne_of_hexValue? hc, CodePoint.ne_of_hexValue? hd, List.forall_mem_nil _⟩

/-- Only a backslash is written by a second backslash. -/
theorem count_of_mem_escapeLetters {e p : CodePoint} (h : (e, p) ∈ escapeLetters) :
    List.count (CodePoint.ofChar '\\') [p] = List.count (CodePoint.ofChar '\\') [e] := by
  simp only [escapeLetters, List.mem_cons, Prod.mk.injEq, List.not_mem_nil, or_false] at h
  rcases h with ⟨rfl, rfl⟩ | ⟨rfl, rfl⟩ | ⟨rfl, rfl⟩ | ⟨rfl, rfl⟩ | ⟨rfl, rfl⟩ | ⟨rfl, rfl⟩ |
    ⟨rfl, rfl⟩ | ⟨rfl, rfl⟩ <;> rfl

namespace UnitsText

variable {b : Text} {us : List StringUnit}

/-- **Backslashes.**  Code points have no more backslashes than the text that they are written as;
if they have as many, there is no quote in either. -/
theorem count_le (h : UnitsText b us) :
    (us.map StringUnit.point).count (CodePoint.ofChar '\\') ≤ b.count (CodePoint.ofChar '\\') ∧
      ((us.map StringUnit.point).count (CodePoint.ofChar '\\')
          = b.count (CodePoint.ofChar '\\') →
        CodePoint.ofChar '"' ∉ b ∧ CodePoint.ofChar '"' ∉ us.map StringUnit.point) := by
  induction h with
  | nil => exact ⟨Nat.le_refl _, fun _ => ⟨List.not_mem_nil, List.not_mem_nil⟩⟩
  | plain control quote backslash _ ih =>
    rw [List.map_cons, List.count_cons_of_ne backslash, List.count_cons_of_ne backslash]
    refine ⟨ih.1, ?_⟩
    intro he
    obtain ⟨hb, hp⟩ := ih.2 he
    rw [List.mem_cons, List.mem_cons]
    constructor
    · rintro (hq | hm)
      · exact quote hq.symm
      · exact hb hm
    · rintro (hq | hm)
      · exact quote hq.symm
      · exact hp hm
  | @letter e p t us letter _ ih =>
    -- an escaped letter costs a backslash that it does not give back
    have hle : List.count (CodePoint.ofChar '\\') (p :: us.map StringUnit.point) + 1
        ≤ List.count (CodePoint.ofChar '\\') (CodePoint.ofChar '\\' :: e :: t) := by
      rw [List.count_cons_self, ← List.singleton_append, List.count_append,
        ← List.singleton_append (l := t), List.count_append, count_of_mem_escapeLetters letter]
      have := ih.1
      omega
    rw [List.map_cons]
    exact ⟨Nat.le_of_succ_le hle, fun he => absurd he (Nat.ne_of_lt hle)⟩
  | @numbered a b c d p w x y z t us ha hb hc hd number _ ih =>
    -- a numbered escape gives its backslash back if it writes one, and then it writes no quote
    have hbare := isBare_number ha hb hc hd
    have htext : CodePoint.ofChar 'u' :: a :: b :: c :: d :: t
        = [CodePoint.ofChar 'u', a, b, c, d] ++ t := rfl
    rw [htext, List.count_cons_self, List.count_append,
      List.count_eq_zero.mpr hbare.backslash_not_mem, Nat.zero_add, List.map_cons]
    by_cases hp : p = CodePoint.ofChar '\\'
    · rw [hp, List.count_cons_self]
      refine ⟨Nat.add_le_add_right ih.1 1, ?_⟩
      intro he
      obtain ⟨ht, hus⟩ := ih.2 (Nat.add_right_cancel he)
      constructor
      · rw [List.mem_cons, List.mem_append]
        rintro (hq | hm | hm)
        · exact absurd hq (by decide)
        · exact hbare.quote_not_mem hm
        · exact ht hm
      · rw [List.mem_cons]
        rintro (hq | hm)
        · exact absurd hq (by decide)
        · exact hus hm
    · rw [List.count_cons_of_ne hp]
      have := ih.1
      exact ⟨by omega, fun he => by omega⟩

/-- **Length.**  There are no more units than characters; if there are as many, each character
stands for itself. -/
theorem length_le (h : UnitsText b us) :
    us.length ≤ b.length ∧ (b.length = us.length → b.IsClean) := by
  induction h with
  | nil => exact ⟨Nat.le_refl _, fun _ => List.forall_mem_nil _⟩
  | plain control quote backslash _ ih =>
    refine ⟨Nat.succ_le_succ ih.1, ?_⟩
    intro he
    exact List.forall_mem_cons.mpr ⟨⟨quote, backslash, control⟩, ih.2 (Nat.succ.inj he)⟩
  | letter =>
    simp only [List.length_cons]
    omega
  | numbered =>
    simp only [List.length_cons]
    omega

end UnitsText

namespace BodyText

variable {b s : Text} {bs ss : List Text}

theorem count_le (h : BodyText b s) :
    s.count (CodePoint.ofChar '\\') ≤ b.count (CodePoint.ofChar '\\') ∧
      (s.count (CodePoint.ofChar '\\') = b.count (CodePoint.ofChar '\\') →
        CodePoint.ofChar '"' ∉ b ∧ CodePoint.ofChar '"' ∉ s) := by
  obtain ⟨us, hus, rfl⟩ := h
  have hbackslash := StringUnit.count_joined (c := CodePoint.ofChar '\\') (by decide) us
  have hquote := StringUnit.count_joined (c := CodePoint.ofChar '"') (by decide) us
  rw [hbackslash]
  refine ⟨hus.count_le.1, ?_⟩
  intro he
  obtain ⟨hb, hp⟩ := hus.count_le.2 he
  refine ⟨hb, ?_⟩
  rwa [← List.count_eq_zero, hquote, List.count_eq_zero]

/-- **A body that stands for itself** has nothing in it that has to be escaped. -/
theorem isClean (h : BodyText s s) : s.IsClean := by
  obtain ⟨us, hus, hs⟩ := h
  have hle := StringUnit.length_joined_le us
  rw [hs] at hle
  exact hus.length_le.2 (Nat.le_antisymm hle hus.length_le.1)

theorem sum_le (h : List.Forall₂ BodyText bs ss) :
    (ss.map (List.count (CodePoint.ofChar '\\'))).sum
      ≤ (bs.map (List.count (CodePoint.ofChar '\\'))).sum := by
  induction h with
  | nil => exact Nat.le_refl _
  | cons h _ ih => exact Nat.add_le_add h.count_le.1 ih

/-- **Bodies with no more backslashes than the strings** together have no quotes, and neither have
the strings: each body has just as many backslashes as its string. -/
theorem quote_not_mem (h : List.Forall₂ BodyText bs ss)
    (hsum : (ss.map (List.count (CodePoint.ofChar '\\'))).sum
      = (bs.map (List.count (CodePoint.ofChar '\\'))).sum) :
    (∀ b ∈ bs, CodePoint.ofChar '"' ∉ b) ∧ ∀ s ∈ ss, CodePoint.ofChar '"' ∉ s := by
  induction h with
  | nil => exact ⟨List.forall_mem_nil _, List.forall_mem_nil _⟩
  | cons h hrest ih =>
    rw [List.map_cons, List.map_cons, List.sum_cons, List.sum_cons] at hsum
    have hle := sum_le hrest
    obtain ⟨hcount, hquote⟩ := h.count_le
    obtain ⟨hb, hs⟩ := hquote (by omega)
    obtain ⟨hbs, hss⟩ := ih (by omega)
    exact ⟨List.forall_mem_cons.mpr ⟨hb, hbs⟩, List.forall_mem_cons.mpr ⟨hs, hss⟩⟩

end BodyText

/-! ### Layouts -/

section Layouts

variable {opts : Options} (hraw : opts.escapeStrings = false)

theorem Options.isBare_indent (opts : Options) (depth : Int) : (opts.indent depth).IsBare :=
  fun c hc => (opts.isJsonBlank_indent depth).isBare c (List.mem_cons_of_mem _ hc)

/-- A block of lines has the strings of all its lines in it. -/
theorem Options.woven_block {α : Type} {line : α → Text} {strings : α → List Text} {as : List α}
    (h : ∀ a ∈ as, Woven (line a) (strings a)) (depth : Int) {first last : Char}
    (hfirst : Text.IsBare [CodePoint.ofChar first])
    (hlast : Text.IsBare [CodePoint.ofChar last]) :
    Woven (opts.block depth first last (as.map line)) (as.flatMap strings) := by
  have hfeed : Text.IsBare [CodePoint.lineFeed] := by decide
  have hcomma : Text.IsBare ",\n" := by decide
  have hend : Text.IsBare (if (as.map line).isEmpty then [] else [CodePoint.lineFeed]) := by
    split_ifs
    · exact Text.isBare_nil
    · exact hfeed
  rw [block, ← Text.join_append_lineEnd]
  refine .append_left (t := [_]) hfirst (.append_left (t := [_]) hfeed ?_)
  exact (((Woven.join hcomma h).append_right hend).append_right
    (opts.isBare_indent depth)).append_right hlast

include hraw

theorem Options.woven_stringText (s : Text) : Woven (opts.stringText s) [s] := by
  rw [stringText, hraw, if_neg Bool.false_ne_true]
  exact .string s

/-- **A layout without escapes** has the strings of the value in it, as they are. -/
theorem Json.woven_layout (j : Json) (depth : Int) : Woven (j.layout opts depth) j.strings := by
  induction j using Json.induction generalizing depth with
  | null =>
    have hnull : Text.IsBare "null" := by decide
    exact .bare hnull
  | bool b =>
    have htrue : Text.IsBare "true" := by decide
    have hfalse : Text.IsBare "false" := by decide
    cases b with
    | true => exact .bare htrue
    | false => exact .bare hfalse
  | number n => exact .bare n.numberText_text.isBare
  | string s => exact Options.woven_stringText hraw s
  | array items ih =>
    rw [layout, itemLines_eq_map, strings_array]
    refine Options.woven_block ?_ depth (by decide) (by decide)
    intro j hj
    exact .append_left (opts.isBare_indent _) (ih j hj _)
  | object members ih =>
    rw [layout, memberLines_eq_map, strings_object]
    refine Options.woven_block ?_ depth (by decide) (by decide)
    intro m hm
    have hcolon : Text.IsBare ": " := by decide
    have hkey := Woven.append_left (opts.isBare_indent (depth + 1))
      (Options.woven_stringText hraw m.1)
    exact (hkey.append_right hcolon).append (ih m hm _)

theorem woven_of_format {j : Json} {t : Text} (h : opts.format j.toDatum = .ok t) :
    Woven t j.strings := by
  obtain ⟨-, rfl⟩ := Options.format_eq_ok_iff.mp h
  exact (j.woven_layout hraw 0).append_right (j.isJsonBlank_lineEnd false).isBare

end Layouts

/-! ### Equal values -/

theorem strings_eq_of_itemsSame {items items' : List Json}
    (ih : ∀ j ∈ items, ∀ k : Json, j.toDatum.same k.toDatum → j.strings = k.strings)
    (h : Datum.itemsSame (items.map Json.toDatum) (items'.map Json.toDatum)) :
    items.flatMap Json.strings = items'.flatMap Json.strings := by
  induction items generalizing items' with
  | nil =>
    cases items' with
    | nil => rfl
    | cons k items' => simp [Datum.itemsSame] at h
  | cons j items ihs =>
    cases items' with
    | nil => simp [Datum.itemsSame] at h
    | cons k items' =>
      rw [List.forall_mem_cons] at ih
      rw [List.map_cons, List.map_cons, Datum.itemsSame, Bool.and_eq_true] at h
      rw [List.flatMap_cons, List.flatMap_cons, ih.1 k h.1, ihs ih.2 h.2]

theorem strings_eq_of_membersSame {members members' : List (Text × Json)}
    (ih : ∀ m ∈ members, ∀ k : Json, m.2.toDatum.same k.toDatum → m.2.strings = k.strings)
    (h : Datum.membersSame (members.map fun m => (m.1, m.2.toDatum))
      (members'.map fun m => (m.1, m.2.toDatum))) :
    members.flatMap (fun m => m.1 :: m.2.strings)
      = members'.flatMap fun m => m.1 :: m.2.strings := by
  induction members generalizing members' with
  | nil =>
    cases members' with
    | nil => rfl
    | cons k members' => simp [Datum.membersSame] at h
  | cons m members ihs =>
    cases members' with
    | nil => simp [Datum.membersSame] at h
    | cons m' members' =>
      rw [List.forall_mem_cons] at ih
      rw [List.map_cons, List.map_cons, Datum.membersSame, Bool.and_eq_true, Bool.and_eq_true,
        beq_iff_eq] at h
      rw [List.flatMap_cons, List.flatMap_cons, h.1.1, ih.1 m'.2 h.1.2, ihs ih.2 h.2]

/-- **Equal values have the same strings**, in the same order. -/
theorem Json.strings_eq_of_same {j k : Json} (h : j.toDatum.same k.toDatum) :
    j.strings = k.strings := by
  induction j using Json.induction generalizing k with
  | null | bool | number =>
    cases k <;> simp_all [toDatum, Datum.same, Datum.number?, strings]
  | string s =>
    cases k <;> simp_all [toDatum, Datum.same, Datum.number?, strings]
  | array items ih =>
    cases k with
    | array items' =>
      rw [toDatum, toDatum, Datum.same, itemsToData_eq_map, itemsToData_eq_map] at h
      rw [strings_array, strings_array]
      exact strings_eq_of_itemsSame (fun j hj k hk => ih j hj hk) h
    | _ => simp [toDatum, Datum.same, Datum.number?] at h
  | object members ih =>
    cases k with
    | object members' =>
      rw [toDatum, toDatum, Datum.same, membersToData_eq_map, membersToData_eq_map] at h
      rw [strings_object, strings_object]
      exact strings_eq_of_membersSame (fun m hm k hk => ih m hm hk) h
    | _ => simp [toDatum, Datum.same, Datum.number?] at h

/-! ### Values that survive -/

/-- **A value that survives** being written without escapes has only strings that need none. -/
theorem isClean_of_readText {opts : Options} {j k : Json} {t : Text}
    (hraw : opts.escapeStrings = false) (hformat : opts.format j.toDatum = .ok t)
    (hread : readText t = .ok k) (hsame : k.toDatum.same j.toDatum) :
    ∀ s ∈ j.strings, s.IsClean := by
  have hwritten : Woven t j.strings := woven_of_format hraw hformat
  obtain ⟨bs, hwoven, hbodies⟩ := (jsonText_of_readText hread).exists_woven
  rw [Json.strings_eq_of_same hsame] at hbodies
  -- the backslashes of the text are counted in two ways
  have hsum := hwritten.count_backslash.symm.trans hwoven.count_backslash
  obtain ⟨hbs, hss⟩ := BodyText.quote_not_mem hbodies hsum
  obtain rfl : bs = j.strings := hwoven.unique hwritten hbs hss
  exact fun s hs => (List.forall₂_same.mp hbodies s hs).isClean

/-- **Round trip without escapes.**  A value whose numbers are finite is formatted, and the text is
read as an equal value if and only if no string and no key has a quote, a backslash or a control
character in it.  Otherwise reading fails or gives another value.  The spaces of the innermost level
have to fit in memory. -/
theorem readText_format_unescaped_iff (opts : Options) (j : Json)
    (hraw : opts.escapeStrings = false) (hdigits : ∀ n ∈ j.numbers, n.WithinDigitLimit)
    (hfinite : ∀ x, .double x ∈ j.numbers → x.isFinite = true) (hnest : j.nesting ≤ 900) :
    (((j.nesting * opts.indentWidth : Nat) : Int) < Options.memoryLimit ∧
      ∃ t, opts.format j.toDatum = .ok t ∧
        ((∃ k, readText t = .ok k ∧ k.toDatum.same j.toDatum = true) ↔
          ∀ s ∈ j.strings, s.IsClean) ∧
        ((∃ s ∈ j.strings, ¬ s.IsClean) →
          (∃ e, readText t = .error e) ∨
            ∃ k, readText t = .ok k ∧ k.toDatum.same j.toDatum = false)) ∨
    (Options.memoryLimit ≤ ((j.nesting * opts.indentWidth : Nat) : Int) ∧
      (opts.format j.toDatum = .error .indentOverflow ∨
        opts.format j.toDatum = .error .outOfMemory)) := by
  have hnan : .double .nan ∉ j.numbers := fun hmem => absurd (hfinite _ hmem) (by decide)
  have hw : j.Writable opts := Json.writable_of_forall hdigits hnan
    fun _ hmem => absurd (hfinite _ hmem) Bool.false_ne_true
  rcases format_of_writable hw with ⟨hwidth, t, hformat⟩ | hwide
  · refine .inl ⟨hwidth, t, hformat, ⟨?_, fun hclean => ?_⟩, ?_⟩
    · rintro ⟨k, hread, hsame⟩
      exact isClean_of_readText hraw hformat hread hsame
    · have hs : ∀ s ∈ j.strings, opts.Spells s :=
        fun s hmem => Options.spells_of_isClean (hclean s hmem)
      have hsame : j.asWritten.toDatum.same j.toDatum := by
        refine Json.same_asWritten fun n hn he => hnan ?_
        rwa [← he]
      exact ⟨j.asWritten, readText_of_format hs (hnest.trans (by decide)) hformat, hsame⟩
    · rintro ⟨s, hs, hdirty⟩
      cases hread : readText t with
      | error e => exact .inl ⟨e, rfl⟩
      | ok k =>
        refine .inr ⟨k, rfl, Bool.eq_false_iff.mpr fun hsame => hdirty ?_⟩
        exact isClean_of_readText hraw hformat hread hsame s hs
  · exact .inr hwide

/-- Of two strings, the first takes the quote that ends it, and the second has one to replace it. -/
theorem readText_format_two_strings :
    ∃ t, (⟨2, false, false⟩ : Options).format (Json.object
        [("k", .array [.string "a\\", .number (.double (.ofDecimal false ⟨15, -1⟩))]),
          ("b\"", .null)]).toDatum = .ok t ∧
      ((∃ e, readText t = .error e) ∨ ∃ k, readText t = .ok k ∧ k.toDatum.same (Json.object
        [("k", .array [.string "a\\", .number (.double (.ofDecimal false ⟨15, -1⟩))]),
          ("b\"", .null)]).toDatum = false) := by
  have hfinite : ∀ x, Number.double x ∈ (Json.object
      [("k", .array [.string "a\\", .number (.double (.ofDecimal false ⟨15, -1⟩))]),
        ("b\"", .null)]).numbers → x.isFinite = true := by
    intro x hx
    obtain rfl := Number.double.inj (List.mem_singleton.mp hx)
    decide +kernel
  obtain ⟨-, t, hformat, -, hdirty⟩ := (readText_format_unescaped_iff ⟨2, false, false⟩ _ rfl
    (by decide +kernel) hfinite (by decide)).resolve_right (by decide +kernel)
  exact ⟨t, hformat, hdirty ⟨"a\\", by decide, by decide⟩⟩

/-- The indentation of a level may be too wide here, too. -/
theorem not_readText_format_unescaped_of_wide_indent :
    ¬ ∀ (opts : Options) (j : Json), opts.escapeStrings = false →
      (∀ n ∈ j.numbers, n.WithinDigitLimit) → (∀ x, .double x ∈ j.numbers → x.isFinite = true) →
      j.nesting ≤ 900 →
      ((∃ t k, opts.format j.toDatum = .ok t ∧ readText t = .ok k ∧
        k.toDatum.same j.toDatum = true) ↔ ∀ s ∈ j.strings, s.IsClean) := by
  intro h
  obtain ⟨t, k, hformat, -, -⟩ := (h ⟨2 ^ 63, false, false⟩ (.array []) rfl
    (List.forall_mem_nil _) (fun _ hmem => absurd hmem List.not_mem_nil) (by decide)).mpr
    (List.forall_mem_nil _)
  have herror : (⟨2 ^ 63, false, false⟩ : Options).format (Json.array []).toDatum
      = .error .indentOverflow := by decide +kernel
  rw [herror] at hformat
  cases hformat

end JsonLayout
