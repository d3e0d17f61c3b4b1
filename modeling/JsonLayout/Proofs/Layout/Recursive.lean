import JsonLayout.Proofs.Layout.Assemble
import JsonLayout.Proofs.Number.Written

/-!
# The layout by recursion

The layout of a JSON value, said by recursion over the value: a container is a block of lines, one
for each part, and each part is laid out one level deeper.  A layout is refused only for a number
that the options do not allow, or for a level that cannot be indented.

## Main definitions

* `Json.layout`: the text of a value, from where it begins on its first line.
* `Json.Writable`, `Options.Fits`: what the options allow, and the levels that can be indented.
* `Options.Refuses`: the errors, each with its cause in the value.

## Main results

* `Json.layout_congr_of_strings`: the options that a layout depends on.
* `Options.fits_iff_parts`, `Options.writable_iff_parts`: what is allowed, from the parts of a
  container to the whole.
* `Options.Refuses.of_part`, `Options.refuses_of_checkPlace`: where the errors of a container come
  from.
-/

namespace JsonLayout

/-! ### The text of a value -/

/-- Lines with commas between them, the last one ended as well. -/
def Text.ofLines (lines : List Text) : Text :=
  if lines.isEmpty then [] else Text.join ",\n" lines ++ [CodePoint.lineFeed]

theorem Text.join_append_lineEnd (lines : List Text) :
    Text.join ",\n" lines ++ (if lines.isEmpty then [] else [CodePoint.lineFeed])
      = Text.ofLines lines := by
  cases lines <;> rfl

/-- Lines between two brackets; the closing one stands on a line of its own. -/
def Options.block (opts : Options) (depth : Int) (first last : Char) (lines : List Text) : Text :=
  CodePoint.ofChar first :: CodePoint.lineFeed ::
    (Text.ofLines lines ++ opts.indent depth ++ [CodePoint.ofChar last])

mutual

/-- The text of a value whose first line is at some depth, from behind the spaces it is indented
with. -/
def Json.layout (opts : Options) (depth : Int) : Json → Text
  | .null => "null"
  | .bool b => if b then "true" else "false"
  | .number n => n.text
  | .string s => opts.stringText s
  | .array items => opts.block depth '[' ']' (itemLines opts (depth + 1) items)
  | .object members => opts.block depth '{' '}' (memberLines opts (depth + 1) members)

/-- A line for each item. -/
def itemLines (opts : Options) (depth : Int) : List Json → List Text
  | [] => []
  | j :: items => (opts.indent depth ++ j.layout opts depth) :: itemLines opts depth items

/-- A line for each member. -/
def memberLines (opts : Options) (depth : Int) : List (Text × Json) → List Text
  | [] => []
  | (key, j) :: members =>
    (opts.indent depth ++ opts.stringText key ++ (": " : Text) ++ j.layout opts depth) ::
      memberLines opts depth members

end

/-- The line of an item. -/
def Json.itemLine (opts : Options) (depth : Int) (j : Json) : Text :=
  opts.indent depth ++ j.layout opts depth

/-- The line of a member. -/
def Json.memberLine (opts : Options) (depth : Int) (m : Text × Json) : Text :=
  opts.indent depth ++ opts.stringText m.1 ++ (": " : Text) ++ m.2.layout opts depth

theorem itemLines_eq_map (opts : Options) (depth : Int) (items : List Json) :
    itemLines opts depth items = items.map (Json.itemLine opts depth) := by
  induction items with
  | nil => rfl
  | cons j items ih => rw [itemLines, ih, List.map_cons, Json.itemLine]

theorem memberLines_eq_map (opts : Options) (depth : Int) (members : List (Text × Json)) :
    memberLines opts depth members = members.map (Json.memberLine opts depth) := by
  induction members with
  | nil => rfl
  | cons m members ih => rw [memberLines, ih, List.map_cons, Json.memberLine]

/-- **The layout** depends on the indentation and on how the strings in the value are written. -/
theorem Json.layout_congr_of_strings {opts opts' : Options}
    (hwidth : opts.indentWidth = opts'.indentWidth) {j : Json}
    (hstrings : ∀ s ∈ j.strings, opts.stringText s = opts'.stringText s) (depth : Int) :
    j.layout opts depth = j.layout opts' depth := by
  have hindent : ∀ depth, opts.indent depth = opts'.indent depth := by
    intro depth
    rw [Options.indent, Options.indent, Options.spaces, Options.spaces, hwidth]
  induction j using Json.induction generalizing depth with
  | null | bool | number => rfl
  | string s => exact hstrings s (List.mem_singleton_self s)
  | array items ih =>
    rw [forall_strings_array] at hstrings
    have hlines : ∀ j ∈ items, j.itemLine opts (depth + 1) = j.itemLine opts' (depth + 1) := by
      intro j hj
      rw [itemLine, itemLine, hindent, ih j hj (hstrings j hj)]
    rw [layout, layout, itemLines_eq_map, itemLines_eq_map, List.map_congr_left hlines,
      Options.block, Options.block, hindent]
  | object members ih =>
    rw [forall_strings_object] at hstrings
    have hlines : ∀ m ∈ members,
        Json.memberLine opts (depth + 1) m = Json.memberLine opts' (depth + 1) m := by
      intro m hm
      rw [memberLine, memberLine, hindent, (hstrings m hm).1, ih m hm (hstrings m hm).2]
    rw [layout, layout, memberLines_eq_map, memberLines_eq_map, List.map_congr_left hlines,
      Options.block, Options.block, hindent]

/-! ### What can be written -/

/-- A value of which the options allow every number. -/
def Json.Writable (opts : Options) (j : Json) : Prop := ∀ n ∈ j.numbers, n.Writable opts

namespace Options

variable {opts : Options} {depth : Int}

/-- The lines of a container from some depth on, and those of all that is in it, can be indented. -/
def Fits (opts : Options) (depth : Int) (j : Json) : Prop :=
  0 < j.nesting → ∀ i : Nat, i ≤ j.nesting → opts.checkIndent (depth + i) = .ok ()

/-- Why a value has no text, by the error that it gives. -/
inductive Refuses (opts : Options) (depth : Int) (j : Json) : DataError → Prop where
  | notFinite {x : Double} (mem : .double x ∈ j.numbers) (h : ¬ (Number.double x).Writable opts) :
      Refuses opts depth j (.notFinite x)
  | integerTooLong {n : Int} (mem : .int n ∈ j.numbers) (h : ¬ (Number.int n).Writable opts) :
      Refuses opts depth j .integerTooLong
  | indentOverflow (h : ¬ opts.Fits depth j) : Refuses opts depth j .indentOverflow
  | outOfMemory (h : ¬ opts.Fits depth j) : Refuses opts depth j .outOfMemory

theorem Refuses.not_allowed {j : Json} {e : DataError} (h : opts.Refuses depth j e) :
    ¬ (j.Writable opts ∧ opts.Fits depth j) := by
  rintro ⟨hw, hf⟩
  cases h with
  | notFinite mem h => exact h (hw _ mem)
  | integerTooLong mem h => exact h (hw _ mem)
  | indentOverflow h => exact h hf
  | outOfMemory h => exact h hf

/-! ### From the parts of a container to the whole -/

theorem checkPlace_eq_ok_iff {place : Place} :
    opts.checkPlace place = .ok () ↔
      opts.checkIndent place.depth = .ok () ∧ opts.checkIndent (place.depth + 1) = .ok () := by
  rw [checkPlace]
  cases h : opts.checkIndent place.depth with
  | error e => simp [bind, Except.bind]
  | ok u => simp [bind, Except.bind]

theorem checkIndent_cases (opts : Options) (depth : Int) :
    opts.checkIndent depth = .ok () ∨ opts.checkIndent depth = .error .indentOverflow ∨
      opts.checkIndent depth = .error .outOfMemory := by
  simp only [checkIndent]
  split_ifs <;> simp

section Container

variable {c : Json} (hc : 0 < c.nesting)

include hc

/-- The lines of a container can be indented if and only if its own can be and those of its parts,
a level deeper, can be. -/
theorem fits_iff_parts : opts.Fits depth c ↔
    (opts.checkIndent depth = .ok () ∧ opts.checkIndent (depth + 1) = .ok ()) ∧
      ∀ j ∈ c.parts, opts.Fits (depth + 1) j := by
  have hshift : ∀ i : Nat, depth + 1 + (i : Int) = depth + (i + 1 : Nat) := by
    intro i
    push_cast
    ring
  constructor
  · intro h
    have h0 := h hc 0 (Nat.zero_le _)
    have h1 := h hc 1 hc
    rw [Nat.cast_zero, add_zero] at h0
    refine ⟨⟨h0, h1⟩, ?_⟩
    intro j hj _ i hi
    obtain ⟨n, hn⟩ := Nat.exists_eq_add_one.mpr hc
    have hle := (Json.nesting_le_iff_parts hc).mp hn.le j hj
    rw [hshift]
    exact h hc (i + 1) (by omega)
  · rintro ⟨⟨h0, h1⟩, hparts⟩ - i hi
    match i with
    | 0 => rwa [Nat.cast_zero, add_zero]
    | 1 => exact h1
    | i + 2 =>
      -- some part is nested so deep
      obtain ⟨j, hj, hlt⟩ : ∃ j ∈ c.parts, i < j.nesting := by
        by_contra hnone
        have hle : ∀ j ∈ c.parts, j.nesting ≤ i :=
          fun j hj => Nat.not_lt.mp fun hlt => hnone ⟨j, hj, hlt⟩
        have := (Json.nesting_le_iff_parts hc).mpr hle
        omega
      rw [← hshift]
      exact hparts j hj (by omega) (i + 1) hlt

theorem writable_iff_parts : c.Writable opts ↔ ∀ j ∈ c.parts, j.Writable opts :=
  Json.forall_numbers_iff_parts hc

/-- A part that has no text leaves the whole without one, for the same reason. -/
theorem Refuses.of_part {j : Json} (hj : j ∈ c.parts) {e : DataError}
    (h : opts.Refuses (depth + 1) j e) : opts.Refuses depth c e := by
  have hfits : ¬ opts.Fits (depth + 1) j → ¬ opts.Fits depth c :=
    fun h hf => h (((fits_iff_parts hc).mp hf).2 j hj)
  cases h with
  | notFinite mem h => exact .notFinite (Json.mem_numbers_of_mem_parts hj mem) h
  | integerTooLong mem h => exact .integerTooLong (Json.mem_numbers_of_mem_parts hj mem) h
  | indentOverflow h => exact .indentOverflow (hfits h)
  | outOfMemory h => exact .outOfMemory (hfits h)

/-- A line of the container itself that cannot be indented. -/
theorem refuses_of_checkPlace {place : Place} {e : DataError}
    (h : opts.checkPlace place = .error e) : opts.Refuses place.depth c e := by
  have hfits : ¬ opts.Fits place.depth c := by
    intro hf
    rw [checkPlace_eq_ok_iff.mpr ((fits_iff_parts hc).mp hf).1] at h
    cases h
  have hcases : e = .indentOverflow ∨ e = .outOfMemory := by
    rw [checkPlace] at h
    rcases opts.checkIndent_cases place.depth with h0 | h0 | h0 <;>
      rcases opts.checkIndent_cases (place.depth + 1) with h1 | h1 | h1 <;>
      simp_all [bind, Except.bind]
  rcases hcases with rfl | rfl
  · exact .indentOverflow hfits
  · exact .outOfMemory hfits

end Container

end Options

end JsonLayout
