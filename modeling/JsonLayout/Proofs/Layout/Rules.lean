import JsonLayout.Proofs.Layout.Indented

/-!
# The rules of the layout

The layout is specified by a rule for each kind of value.  A scalar gives its text.  A container
gives its brackets, and a line between them for each part, one level deeper; where a part is a
container itself it follows the same rules, but for the line feed that an array ends in, which is
left out.  The work list gives just that, as soon as every scalar has a text and every line can be
indented.

## Main definitions

* `Json.textAt`: the text of a value by the rules.
* `Json.scalars`: the scalars at any depth.

## Main results

* `Json.textAt_eq`: the text by the rules is the one of the recursion.
* `Json.scalars_written_iff`: when every scalar has a text.
* `Options.render_eq_ok_iff_textAt`: the work list gives the text by the rules, or an error.
-/

namespace JsonLayout

/-! ### The rules -/

/-- Whether a value is an array or an object. -/
def Json.isContainer : Json → Bool
  | .array _ | .object _ => true
  | _ => false

/-- The text of a scalar that has one. -/
def Json.scalarText (opts : Options) (j : Json) : Text :=
  match opts.scalarText j.toDatum with
  | .ok t => t
  | .error _ => []

mutual

/-- **The text of a value** at some depth, by the rule for its kind.  After a key the opening
bracket is not indented. -/
def Json.textAt (opts : Options) (depth : Int) (afterKey : Bool) : Json → Text
  | .array items =>
    opts.lineStart depth afterKey ++ ("[\n" : Text) ++
      Text.ofLines (elementLines opts (depth + 1) items) ++ opts.indent depth ++ ("]\n" : Text)
  | .object members =>
    opts.lineStart depth afterKey ++ ("\x7b\n" : Text) ++
      Text.ofLines (pairLines opts (depth + 1) members) ++ opts.indent depth ++ ("\x7d" : Text)
  | j => j.scalarText opts

/-- A line for each element of an array.  A container is indented by its own rule. -/
def elementLines (opts : Options) (depth : Int) : List Json → List Text
  | [] => []
  | j :: items =>
    (if j.isContainer then (j.textAt opts depth false).withoutFinalLineFeed
      else opts.indent depth ++ j.textAt opts depth false) :: elementLines opts depth items

/-- A line for each pair of an object, which begins with the key. -/
def pairLines (opts : Options) (depth : Int) : List (Text × Json) → List Text
  | [] => []
  | (key, j) :: members =>
    (opts.indent depth ++ opts.stringText key ++ (": " : Text) ++
      (j.textAt opts depth true).withoutFinalLineFeed) :: pairLines opts depth members

end

mutual

/-- The scalars in a value at any depth, in reading order. -/
def Json.scalars : Json → List Json
  | .array items => itemsScalars items
  | .object members => membersScalars members
  | j => [j]

/-- The scalars in all items. -/
def itemsScalars : List Json → List Json
  | [] => []
  | j :: items => j.scalars ++ itemsScalars items

/-- The scalars in the values of all members. -/
def membersScalars : List (Text × Json) → List Json
  | [] => []
  | (_, j) :: members => j.scalars ++ membersScalars members

end

variable {opts : Options}

/-! ### Scalars -/

namespace Json

theorem scalars_array (items : List Json) : (array items).scalars = items.flatMap scalars := by
  rw [scalars]
  induction items with
  | nil => rfl
  | cons j items ih => rw [itemsScalars, ih, List.flatMap_cons]

theorem scalars_object (members : List (Text × Json)) :
    (object members).scalars = members.flatMap fun m => m.2.scalars := by
  rw [scalars]
  induction members with
  | nil => rfl
  | cons m members ih => rw [membersScalars, ih, List.flatMap_cons]

/-- **Every scalar has a text** if and only if the options allow every number. -/
theorem scalars_written_iff {j : Json} :
    (∀ k ∈ j.scalars, ∃ t, opts.scalarText k.toDatum = .ok t) ↔ j.Writable opts := by
  induction j using Json.induction with
  | null | bool | string =>
    exact iff_of_true (List.forall_mem_singleton.mpr ⟨_, rfl⟩) (List.forall_mem_nil _)
  | number n =>
    have hself : (number n).scalars = [number n] := rfl
    rw [Writable, numbers, hself, List.forall_mem_singleton, List.forall_mem_singleton]
    constructor
    · rintro ⟨t, ht⟩
      by_contra hn
      obtain ⟨e, he, -⟩ := Options.refuses_of_not_writable 0 hn
      cases he.symm.trans ht
    · exact fun hn => ⟨_, Options.numberText_toDatum hn⟩
  | array items ih =>
    rw [Writable, forall_numbers_array, scalars_array, List.forall_mem_flatMap]
    exact forall₂_congr ih
  | object members ih =>
    rw [Writable, forall_numbers_object, scalars_object, List.forall_mem_flatMap]
    exact forall₂_congr ih

/-! ### The rules and the recursion -/

theorem elementLines_eq_map (opts : Options) (depth : Int) (items : List Json) :
    elementLines opts depth items = items.map fun j =>
      if j.isContainer then (j.textAt opts depth false).withoutFinalLineFeed
      else opts.indent depth ++ j.textAt opts depth false := by
  induction items with
  | nil => rfl
  | cons j items ih => rw [elementLines, ih, List.map_cons]

theorem pairLines_eq_map (opts : Options) (depth : Int) (members : List (Text × Json)) :
    pairLines opts depth members = members.map fun m =>
      opts.indent depth ++ opts.stringText m.1 ++ (": " : Text) ++
        (m.2.textAt opts depth true).withoutFinalLineFeed := by
  induction members with
  | nil => rfl
  | cons m members ih => rw [pairLines, ih, List.map_cons]

/-- The text of a value where it stands in no other one: that of a scalar has no indentation. -/
def standing (opts : Options) (depth : Int) (afterKey : Bool) (j : Json) : Text :=
  if 0 < j.nesting then j.placed opts ⟨depth, afterKey, false⟩ else j.layout opts depth

/-- Without the line feed at its end, this text is the layout behind the indentation. -/
theorem withoutFinalLineFeed_standing (depth : Int) (afterKey : Bool) (j : Json) :
    (j.standing opts depth afterKey).withoutFinalLineFeed
      = (if 0 < j.nesting then opts.lineStart depth afterKey else []) ++ j.layout opts depth := by
  rw [standing]
  split_ifs
  · exact (j.withoutFinalLineFeed_placed opts depth (opts.lineStart depth afterKey)).1
  · exact if_neg (j.getLast?_layout opts depth [])

theorem isContainer_iff {j : Json} : j.isContainer = true ↔ 0 < j.nesting := by
  cases j with
  | array items => exact iff_of_true rfl (nesting_array_pos items)
  | object members => exact iff_of_true rfl (nesting_object_pos members)
  | _ => exact iff_of_false Bool.false_ne_true (Nat.lt_irrefl 0)

/-- The lines of a container, one after the other, are a block. -/
theorem lines_eq_block (opts : Options) (depth : Int) (start final : Text) (first last : Char)
    (lines : List Text) :
    start ++ [CodePoint.ofChar first, CodePoint.lineFeed] ++ Text.ofLines lines ++
        opts.indent depth ++ CodePoint.ofChar last :: final
      = start ++ (opts.block depth first last lines ++ final) := by
  simp [Options.block]

/-- **The text by the rules** is the one of the recursion. -/
theorem textAt_eq {j : Json} (h : j.Writable opts) (depth : Int) (afterKey : Bool) :
    j.textAt opts depth afterKey = j.standing opts depth afterKey := by
  induction j using Json.induction generalizing depth afterKey with
  | null | bool | string => rfl
  | number n =>
    have hn : opts.numberText n.toDatum = .ok n.text :=
      Options.numberText_toDatum (List.forall_mem_singleton.mp h)
    have htext : (number n).scalarText opts = n.text := by
      rw [scalarText, toDatum, Options.scalarText, hn]
    exact htext
  | array items ih =>
    rw [Writable, forall_numbers_array] at h
    have hlines : elementLines opts (depth + 1) items = itemLines opts (depth + 1) items := by
      rw [elementLines_eq_map, itemLines_eq_map]
      refine List.map_congr_left fun j hj => ?_
      -- by the rules a container in an array indents itself, in the recursion its array does
      rw [ih j hj (h j hj), withoutFinalLineFeed_standing, itemLine]
      by_cases hcontainer : j.isContainer = true
      · rw [if_pos hcontainer, if_pos (isContainer_iff.mp hcontainer)]
        rfl
      · rw [if_neg hcontainer, standing, if_neg (mt isContainer_iff.mpr hcontainer)]
    rw [textAt, hlines, standing, if_pos (nesting_array_pos items)]
    exact lines_eq_block opts depth _ [CodePoint.lineFeed] '[' ']' _
  | object members ih =>
    rw [Writable, forall_numbers_object] at h
    have hlines : pairLines opts (depth + 1) members = memberLines opts (depth + 1) members := by
      rw [pairLines_eq_map, memberLines_eq_map]
      refine List.map_congr_left fun m hm => ?_
      rw [ih m hm (h m hm), withoutFinalLineFeed_standing, memberLine]
      simp [Options.lineStart]
    rw [textAt, hlines, standing, if_pos (nesting_object_pos members)]
    exact lines_eq_block opts depth _ [] '{' '}' _

/-- An array drops its last line feed in another container, and a scalar is not indented behind a
key. -/
example : textAt {} 1 true (.object [("a", .array [.null, .array []]), ("b", .bool true)])
    = "\x7b\n    \"a\": [\n      null,\n      [\n      ]\n    ],\n    \"b\": true\n  \x7d" := by
  decide +kernel

end Json

/-! ### The work list -/

/-- **The work list** comes to an end with a text, and this is the text by the rules, if and only if
every scalar has a text and the lines of every level can be indented.  In every other case there is
the error about a number in the value that cannot be written, or about the spaces of one of its
levels. -/
theorem Options.render_eq_ok_iff_textAt {opts : Options} {j : Json} {depth : Int}
    {afterKey : Bool} :
    (∀ t, opts.render j.toDatum depth afterKey = .ok t ↔
      (∀ k ∈ j.scalars, ∃ u, opts.scalarText k.toDatum = .ok u) ∧ opts.Fits depth j ∧
        j.textAt opts depth afterKey = t) ∧
    ((∃ t, opts.render j.toDatum depth afterKey = .ok t) ∨
      ∃ e, opts.Refuses depth j e ∧ opts.render j.toDatum depth afterKey = .error e) := by
  rw [Json.scalars_written_iff]
  rcases opts.render_toDatum j depth afterKey with ⟨⟨hwritable, hfits⟩, h⟩ | ⟨e, hrefuses, h⟩
  · refine ⟨fun t => ?_, .inl ⟨_, h⟩⟩
    rw [h, Except.ok.injEq, ← Json.standing, ← Json.textAt_eq hwritable]
    exact ⟨fun htext => ⟨hwritable, hfits, htext⟩, fun htext => htext.2.2⟩
  · refine ⟨fun t => ?_, .inr ⟨e, hrefuses, h⟩⟩
    rw [h]
    refine iff_of_false nofun ?_
    rintro ⟨hwritable, hfits, -⟩
    exact hrefuses.not_allowed ⟨hwritable, hfits⟩

/-- An array has no text where its parts would stand behind more spaces than a machine word
counts. -/
theorem Options.not_render_eq_textAt_of_wide_indent :
    ¬ ∀ (opts : Options) (j : Json) (depth : Int) (afterKey : Bool),
      (∀ k ∈ j.scalars, ∃ u, opts.scalarText k.toDatum = .ok u) →
      opts.render j.toDatum depth afterKey = .ok (j.textAt opts depth afterKey) := by
  intro h
  have htext := h ⟨2 ^ 63, false, false⟩ (.array []) 0 false (List.forall_mem_nil _)
  have herror : Options.render ⟨2 ^ 63, false, false⟩ (Json.array []).toDatum 0 false
      = .error .indentOverflow := by
    decide +kernel
  cases herror.symm.trans htext

end JsonLayout
