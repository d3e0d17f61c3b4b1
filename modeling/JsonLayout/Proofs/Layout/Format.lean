import JsonLayout.Proofs.Layout.Recursive

/-!
# The work list and the recursion

The work list gives, for every JSON value, the text of the recursion, or an error that has its cause
in the value.

## Main definitions

* `Options.Outcome`: pieces that give the text of a value, or an error with its cause in it.
* `Json.placed`: the text of a value where it stands.

## Main results

* `Options.outcomePending`: the outcome of a container that waits.
* `Options.render_toDatum`, `Options.format_toDatum`: the text of a value, or the error.
* `Options.format_eq_ok_iff`, `Options.fits_zero_iff`: which values have a text.
-/

namespace JsonLayout

namespace Options

variable {opts : Options} {depth : Int}

/-! ### Numbers -/

theorem numberText_toDatum {n : Number} (h : n.Writable opts) :
    opts.numberText n.toDatum = .ok n.text := by
  cases n with
  | int n =>
    have hn : Decimal.exceedsLimit n = false := decide_eq_false (Nat.not_le.mpr h)
    rw [Number.toDatum, numberText, hn]
    rfl
  | double x =>
    rw [Number.toDatum, numberText, doubleText, Number.text]
    split_ifs with hx hnan
    · rfl
    · rfl
    · exact absurd (h.resolve_left hx) hnan

theorem refuses_of_not_writable (depth : Int) {n : Number} (h : ¬ n.Writable opts) :
    ∃ e, opts.numberText n.toDatum = .error e ∧ opts.Refuses depth (.number n) e := by
  have hmem : n ∈ (Json.number n).numbers := List.mem_singleton_self n
  cases n with
  | int n =>
    have hn : Decimal.exceedsLimit n = true := decide_eq_true (Nat.not_lt.mp h)
    refine ⟨_, ?_, .integerTooLong hmem h⟩
    rw [Number.toDatum, numberText, hn]
    rfl
  | double x =>
    refine ⟨_, ?_, .notFinite hmem h⟩
    have hx : ¬ x.isFinite ∧ ¬ opts.allowNan := not_or.mp h
    rw [Number.toDatum, numberText, doubleText, if_neg hx.1, if_neg hx.2]

/-! ### Outcomes -/

/-- The outcome of pieces that stand for a value: its text if it is allowed, and otherwise an error
with its cause in the value. -/
def Outcome (opts : Options) (depth : Int) (j : Json) (t : Text) (ps : List Piece) : Prop :=
  ((j.Writable opts ∧ opts.Fits depth j) ∧ opts.Yields ps (.ok t)) ∨
    ∃ e, opts.Refuses depth j e ∧ opts.Yields ps (.error e)

end Options

/-- An array ends its last line, unless it stands in another container. -/
def Json.lineEnd (embedded : Bool) : Json → Text
  | .array _ => if embedded then [] else [CodePoint.lineFeed]
  | _ => []

/-- The text of a container where it stands. -/
def Json.placed (opts : Options) (place : Place) (j : Json) : Text :=
  (if place.afterKey then [] else opts.indent place.depth) ++
    (j.layout opts place.depth ++ j.lineEnd place.embedded)

/-- A container that waits to be laid out. -/
def Json.pending (place : Place) : Json → List Piece
  | .array items => [.array (items.map Json.toDatum) place]
  | .object members => [.object (members.map fun m => (m.1, m.2.toDatum)) place]
  | _ => []

namespace Options

variable {opts : Options} {depth : Int}

/-- The outcome of a container wherever it stands. -/
def OutcomePending (opts : Options) (j : Json) : Prop :=
  0 < j.nesting → ∀ place, opts.Outcome place.depth j (j.placed opts place) (j.pending place)

/-- **A part of a container**: an error of its own, or a piece with an outcome. -/
theorem part_toDatum (depth : Int) (afterKey : Bool) {j : Json} (hj : opts.OutcomePending j) :
    (∃ p, opts.part depth afterKey j.toDatum = .ok p ∧
      opts.Outcome (depth + 1) j
        ((if afterKey then [] else opts.indent (depth + 1)) ++ j.layout opts (depth + 1)) [p]) ∨
    ∃ e, opts.part depth afterKey j.toDatum = .error e ∧ opts.Refuses (depth + 1) j e := by
  -- a scalar that has a text is a piece that gives this text
  have scalar : ∀ {j : Json} {t : Text}, j.nesting = 0 → j.Writable opts →
      j.layout opts (depth + 1) = t → opts.Outcome (depth + 1) j
        ((if afterKey then [] else opts.indent (depth + 1)) ++ j.layout opts (depth + 1))
        [.text (if afterKey then t else opts.indent (depth + 1) ++ t)] := by
    rintro j t hnest hw rfl
    refine .inl ⟨⟨hw, fun hpos => absurd hnest (Nat.ne_of_gt hpos)⟩, ?_⟩
    cases afterKey
    · exact opts.yields_text _
    · exact opts.yields_text _
  cases j with
  | null => exact .inl ⟨_, rfl, scalar rfl (List.forall_mem_nil _) rfl⟩
  | bool b => exact .inl ⟨_, rfl, scalar rfl (List.forall_mem_nil _) rfl⟩
  | string s => exact .inl ⟨_, rfl, scalar rfl (List.forall_mem_nil _) rfl⟩
  | number n =>
    have hpart : opts.part depth afterKey (Json.number n).toDatum
        = (opts.numberText n.toDatum).map fun t =>
          .text (if afterKey then t else opts.indent (depth + 1) ++ t) := rfl
    rw [hpart]
    by_cases hn : n.Writable opts
    · rw [numberText_toDatum hn]
      exact .inl ⟨_, rfl, scalar rfl (List.forall_mem_singleton.mpr hn) rfl⟩
    · obtain ⟨e, he, href⟩ := refuses_of_not_writable (depth + 1) hn
      rw [he]
      exact .inr ⟨e, rfl, href⟩
  | array items =>
    have h := hj (Json.nesting_array_pos items) ⟨depth + 1, afterKey, true⟩
    rw [Json.toDatum, itemsToData_eq_map]
    refine .inl ⟨_, rfl, ?_⟩
    rwa [Json.placed, Json.lineEnd, if_pos rfl, List.append_nil] at h
  | object members =>
    have h := hj (Json.nesting_object_pos members) ⟨depth + 1, afterKey, true⟩
    rw [Json.toDatum, membersToData_eq_map]
    refine .inl ⟨_, rfl, ?_⟩
    have hend : (Json.object members).lineEnd true = [] := rfl
    rwa [Json.placed, hend, List.append_nil] at h

theorem itemPieces_toDatum (depth : Int) {items : List Json}
    (h : ∀ j ∈ items, opts.OutcomePending j) :
    (∃ ps, opts.itemPieces depth (items.map Json.toDatum) = .ok ps ∧
      List.Forall₂ (fun j p => opts.Outcome (depth + 1) j (j.itemLine opts (depth + 1)) [p])
        items ps) ∨
    ∃ e, opts.itemPieces depth (items.map Json.toDatum) = .error e ∧
      ∃ j ∈ items, opts.Refuses (depth + 1) j e := by
  induction items with
  | nil => exact .inl ⟨[], rfl, .nil⟩
  | cons j items ih =>
    rw [List.forall_mem_cons] at h
    rw [List.map_cons, itemPieces]
    rcases part_toDatum depth false h.1 with ⟨p, hp, hout⟩ | ⟨e, he, href⟩
    · rw [hp]
      rcases ih h.2 with ⟨ps, hps, houts⟩ | ⟨e, he, k, hk, href⟩
      · rw [hps]
        exact .inl ⟨p :: ps, rfl, .cons hout houts⟩
      · rw [he]
        exact .inr ⟨e, rfl, k, List.mem_cons_of_mem j hk, href⟩
    · rw [he]
      exact .inr ⟨e, rfl, j, List.mem_cons_self .., href⟩

theorem memberPieces_toDatum (depth : Int) {members : List (Text × Json)}
    (h : ∀ m ∈ members, opts.OutcomePending m.2) :
    (∃ ps, opts.memberPieces depth (members.map fun m => (m.1, m.2.toDatum)) = .ok ps ∧
      List.Forall₂ (fun m p => opts.Outcome (depth + 1) m.2 (Json.memberLine opts (depth + 1) m)
        [.text p.1, p.2]) members ps) ∨
    ∃ e, opts.memberPieces depth (members.map fun m => (m.1, m.2.toDatum)) = .error e ∧
      ∃ m ∈ members, opts.Refuses (depth + 1) m.2 e := by
  induction members with
  | nil => exact .inl ⟨[], rfl, .nil⟩
  | cons m members ih =>
    rw [List.forall_mem_cons] at h
    rw [List.map_cons, memberPieces]
    rcases part_toDatum depth true h.1 with ⟨p, hp, hout⟩ | ⟨e, he, href⟩
    · rw [hp]
      rcases ih h.2 with ⟨ps, hps, houts⟩ | ⟨e, he, k, hk, href⟩
      · rw [hps]
        refine .inl ⟨_, rfl, .cons ?_ houts⟩
        -- the key is a text of its own in front of the value
        rcases hout with ⟨hok, hy⟩ | ⟨e, href, hy⟩
        · exact .inl ⟨hok, (opts.yields_text _).append hy⟩
        · exact .inr ⟨e, href, (opts.yields_text _).append hy⟩
      · rw [he]
        exact .inr ⟨e, rfl, k, List.mem_cons_of_mem m hk, href⟩
    · rw [he]
      exact .inr ⟨e, rfl, m, List.mem_cons_self .., href⟩

/-! ### Containers -/

theorem yields_lineEnd {α : Type} (parts : List α) :
    opts.Yields (lineEnd parts) (.ok (if parts.isEmpty then [] else [CodePoint.lineFeed])) := by
  rw [lineEnd]
  split_ifs
  · exact yields_nil
  · exact opts.yields_text _

/-- **The pieces of a container**, from the pieces of its parts. -/
theorem outcome_block {α : Type} {c : Json} (hc : 0 < c.nesting) {place : Place}
    (hplace : opts.checkPlace place = .ok ()) {as : List α} (value : α → Json) (line : α → Text)
    (hparts : c.parts = as.map value) {pss : List (List Piece)}
    (h : List.Forall₂ (fun a ps => opts.Outcome (place.depth + 1) (value a) (line a) ps) as pss)
    (first last : Char) (final : Text) :
    opts.Outcome place.depth c
      ((if place.afterKey then [] else opts.indent place.depth) ++
        (opts.block place.depth first last (as.map line) ++ final))
      (opts.opening first place :: ((pss.intersperse [.text ",\n"]).flatten ++ lineEnd pss ++
        [.text (opts.indent place.depth ++ (CodePoint.ofChar last :: final))])) := by
  have hjoin := exists_yields_join ",\n" h
  rcases hjoin with ⟨hall, hy⟩ | ⟨a, ha, e, href, hy⟩
  · refine .inl ⟨⟨?_, ?_⟩, ?_⟩
    · rw [writable_iff_parts hc, hparts, List.forall_mem_map]
      exact fun a ha => (hall a ha).1
    · rw [fits_iff_parts hc, hparts, List.forall_mem_map]
      exact ⟨checkPlace_eq_ok_iff.mp hplace, fun a ha => (hall a ha).2⟩
    · have hempty : pss.isEmpty = (as.map line).isEmpty := by
        cases h <;> rfl
      have hfirst := opts.yields_text ((if place.afterKey then [] else opts.indent place.depth) ++
        [CodePoint.ofChar first, CodePoint.lineFeed])
      have hlast := opts.yields_text (opts.indent place.depth ++ (CodePoint.ofChar last :: final))
      refine (hfirst.append ((hy.append (yields_lineEnd pss)).append hlast)).congr ?_
      simp only [Except.map, hempty, Text.join_append_lineEnd, block, List.append_assoc,
        List.cons_append, List.nil_append]
  · refine .inr ⟨e, href.of_part hc (hparts ▸ List.mem_map_of_mem ha), ?_⟩
    exact (opts.yields_text _).append ((hy.append_of_error _).append_of_error _)

theorem Outcome.imp {j : Json} {t : Text} {ps qs : List Piece} (h : opts.Outcome depth j t ps)
    (hy : ∀ r, opts.Yields ps r → opts.Yields qs r) : opts.Outcome depth j t qs := by
  rcases h with ⟨hok, h⟩ | ⟨e, href, h⟩
  · exact .inl ⟨hok, hy _ h⟩
  · exact .inr ⟨e, href, hy _ h⟩

/-- **A container** gives the text of the recursion, or an error with its cause in it. -/
theorem outcomePending (j : Json) : opts.OutcomePending j := by
  induction j using Json.induction with
  | null | bool | number | string => exact fun h => absurd h (Nat.lt_irrefl 0)
  | array items ih =>
    intro hc place
    cases hplace : opts.checkPlace place with
    | error e =>
      refine .inr ⟨e, refuses_of_checkPlace hc hplace, yields_array_of_error ?_⟩
      rw [arrayPieces, hplace]
      rfl
    | ok u =>
      rcases itemPieces_toDatum place.depth ih with ⟨ps, hps, houts⟩ | ⟨e, he, j, hj, href⟩
      · have hout := outcome_block hc hplace id (Json.itemLine opts (place.depth + 1))
          (List.map_id items).symm (List.forall₂_map_right_iff.mpr houts) '[' ']'
          ((Json.array items).lineEnd place.embedded)
        rw [← itemLines_eq_map, ← intersperse_eq_flatten] at hout
        refine hout.imp fun r hr => .array ?_ hr
        have hend : lineEnd (ps.map fun p => [p]) = lineEnd ps := by cases ps <;> rfl
        have hlast : CodePoint.ofChar ']' :: (Json.array items).lineEnd place.embedded
            = if place.embedded then ("]" : Text) else "]\n" := by
          rw [Json.lineEnd]
          cases place.embedded <;> rfl
        rw [arrayPieces, hplace, hps, hend, hlast]
        rfl
      · refine .inr ⟨e, href.of_part hc hj, yields_array_of_error ?_⟩
        rw [arrayPieces, hplace, he]
        rfl
  | object members ih =>
    intro hc place
    cases hplace : opts.checkPlace place with
    | error e =>
      refine .inr ⟨e, refuses_of_checkPlace hc hplace, yields_object_of_error ?_⟩
      rw [objectPieces, hplace]
      rfl
    | ok u =>
      rcases memberPieces_toDatum place.depth ih with ⟨ps, hps, houts⟩ | ⟨e, he, m, hm, href⟩
      · have hout := outcome_block hc hplace Prod.snd (Json.memberLine opts (place.depth + 1)) rfl
          (List.forall₂_map_right_iff.mpr houts) '{' '}' []
        rw [← memberLines_eq_map] at hout
        refine hout.imp fun r hr => .object ?_ hr
        have hend : lineEnd (ps.map fun p => [Piece.text p.1, p.2]) = lineEnd ps := by
          cases ps <;> rfl
        rw [objectPieces, hplace, hps, hend]
        rfl
      · refine .inr ⟨e, href.of_part hc (List.mem_map_of_mem hm), yields_object_of_error ?_⟩
        rw [objectPieces, hplace, he]
        rfl

/-! ### Whole values -/

/-- **Rendering a value** gives the text of the recursion if the value is allowed; otherwise there
is an error, with its cause in the value. -/
theorem render_toDatum (j : Json) (depth : Int) (afterKey : Bool) :
    ((j.Writable opts ∧ opts.Fits depth j) ∧
      opts.render j.toDatum depth afterKey = .ok (if 0 < j.nesting then
        j.placed opts ⟨depth, afterKey, false⟩ else j.layout opts depth)) ∨
    ∃ e, opts.Refuses depth j e ∧ opts.render j.toDatum depth afterKey = .error e := by
  have scalar : ∀ {j : Json}, j.nesting = 0 → opts.Fits depth j :=
    fun hnest hpos => absurd hnest (Nat.ne_of_gt hpos)
  cases j with
  | null | bool | string => exact .inl ⟨⟨List.forall_mem_nil _, scalar rfl⟩, rfl⟩
  | number n =>
    have hrender : opts.render (Json.number n).toDatum depth afterKey
        = opts.numberText n.toDatum := rfl
    rw [hrender]
    by_cases hn : n.Writable opts
    · exact .inl ⟨⟨List.forall_mem_singleton.mpr hn, scalar rfl⟩, numberText_toDatum hn⟩
    · obtain ⟨e, he, href⟩ := refuses_of_not_writable depth hn
      exact .inr ⟨e, href, he⟩
  | array items =>
    have hpos := Json.nesting_array_pos items
    rw [Json.toDatum, itemsToData_eq_map, if_pos hpos]
    rcases outcomePending (.array items) hpos ⟨depth, afterKey, false⟩ with ⟨hok, h⟩ | ⟨e, href, h⟩
    · exact .inl ⟨hok, h.assemble_eq⟩
    · exact .inr ⟨e, href, h.assemble_eq⟩
  | object members =>
    have hpos := Json.nesting_object_pos members
    rw [Json.toDatum, membersToData_eq_map, if_pos hpos]
    rcases outcomePending (.object members) hpos ⟨depth, afterKey, false⟩
      with ⟨hok, h⟩ | ⟨e, href, h⟩
    · exact .inl ⟨hok, h.assemble_eq⟩
    · exact .inr ⟨e, href, h.assemble_eq⟩

/-- A value is its own conversion. -/
theorem toValue_toDatum (j : Json) : j.toDatum.toValue = .ok j.toDatum := by
  cases j <;> rfl

/-- **Formatting a value** gives the text of the recursion if the value is allowed; otherwise there
is an error, with its cause in the value. -/
theorem format_toDatum (opts : Options) (j : Json) :
    ((j.Writable opts ∧ opts.Fits 0 j) ∧
      opts.format j.toDatum = .ok (j.layout opts 0 ++ j.lineEnd false)) ∨
    ∃ e, opts.Refuses 0 j e ∧ opts.format j.toDatum = .error e := by
  have hformat : opts.format j.toDatum = opts.render j.toDatum 0 false := by
    rw [format, toValue_toDatum]
    rfl
  have hindent : opts.indent 0 = [] := by
    rw [indent, spaces, Int.zero_mul]
    rfl
  have htext : (if 0 < j.nesting then j.placed opts ⟨0, false, false⟩ else j.layout opts 0)
      = j.layout opts 0 ++ j.lineEnd false := by
    cases j with
    | array items => rw [if_pos (Json.nesting_array_pos items), Json.placed, hindent]; rfl
    | object members => rw [if_pos (Json.nesting_object_pos members), Json.placed, hindent]; rfl
    | _ => exact (List.append_nil _).symm
  rw [hformat, ← htext]
  exact render_toDatum j 0 false

theorem format_eq_ok_iff {j : Json} {t : Text} :
    opts.format j.toDatum = .ok t ↔
      (j.Writable opts ∧ opts.Fits 0 j) ∧ j.layout opts 0 ++ j.lineEnd false = t := by
  rcases opts.format_toDatum j with ⟨hok, h⟩ | ⟨e, href, h⟩
  · rw [h, Except.ok.injEq]
    exact (and_iff_right hok).symm
  · rw [h]
    constructor
    · intro hok
      cases hok
    · rintro ⟨hok, -⟩
      exact absurd hok href.not_allowed

theorem checkIndent_eq_ok_iff : opts.checkIndent depth = .ok () ↔
    -wordLimit ≤ opts.spaces depth ∧ opts.spaces depth < memoryLimit := by
  have hmemory := memoryLimit_le_wordLimit
  simp only [checkIndent]
  split_ifs with h₁ h₂
  · exact iff_of_false not_false (by omega)
  · exact iff_of_false not_false (by omega)
  · exact iff_of_true rfl (by omega)

/-- The lines of a value at the outermost level can be indented if and only if the spaces of the
innermost one can be held in memory. -/
theorem fits_zero_iff {j : Json} :
    opts.Fits 0 j ↔ ((j.nesting * opts.indentWidth : Nat) : Int) < memoryLimit := by
  have hmemory := memoryLimit_pos
  have hword : 0 < wordLimit := memoryLimit_pos.trans_le memoryLimit_le_wordLimit
  have hspaces : ∀ i : Nat, opts.spaces (0 + i) = ((i * opts.indentWidth : Nat) : Int) := by
    intro i
    rw [spaces, Int.zero_add, Nat.cast_mul]
  constructor
  · intro h
    rcases Nat.eq_zero_or_pos j.nesting with hnest | hnest
    · rw [hnest, Nat.zero_mul]
      exact memoryLimit_pos
    · have hlast := h hnest j.nesting le_rfl
      rw [checkIndent_eq_ok_iff, hspaces] at hlast
      exact hlast.2
  · intro h _ i hi
    have hle : i * opts.indentWidth ≤ j.nesting * opts.indentWidth := Nat.mul_le_mul_right _ hi
    rw [checkIndent_eq_ok_iff, hspaces]
    omega

theorem not_fits_zero_iff {j : Json} :
    ¬ opts.Fits 0 j ↔ memoryLimit ≤ ((j.nesting * opts.indentWidth : Nat) : Int) := by
  rw [fits_zero_iff, not_lt]

end Options

end JsonLayout
