import JsonLayout.Proofs.Layout.Faults
import JsonLayout.Proofs.Layout.Format
import JsonLayout.Proofs.Layout.Indented

/-!
# Layouts with other indentations

The width of an indentation and the depth that a value starts at move the lines of a layout and
change nothing else.  Strings that are written as they are may hold line feeds and spaces of their
own, so lines of the layout cannot be told from lines of a string; but the spaces of the layout only
stand where a line begins, and there all spaces are dropped alike.

## Main definitions

* `Text.unindentedLines`: the lines of a text without the spaces in front of them.
* `Text.Realigned`: texts that come out alike, from some point on a line on, without these spaces.

## Main results

* `Text.Realigned.append`: texts one after the other.
* `Json.realigned_layout`: the layouts of a value with two indentations.
* `Json.findSome?_fault?_toDatum`: the fault of a value does not depend on the indentation.
* `Options.render_realigned`: what is laid out with two indentations.
-/

namespace JsonLayout

/-! ### Texts -/

namespace Text

/-- The lines of a text, each without the spaces in front of it. -/
def unindentedLines (t : Text) : List Text :=
  t.splitLines.map (List.dropWhile (· = CodePoint.ofChar ' '))

/-- A text without the spaces in front of its lines.  `start` says that nothing but spaces stands
in front of it on its first line. -/
def withoutIndents (start : Bool) : Text → Text
  | [] => []
  | c :: t =>
    if start ∧ c = CodePoint.ofChar ' ' then withoutIndents true t
    else c :: withoutIndents (c = CodePoint.lineFeed) t

/-- Whether nothing but spaces stands on the last line of a text, in front of what follows. -/
def atStart (start : Bool) : Text → Bool
  | [] => start
  | c :: t =>
    if start ∧ c = CodePoint.ofChar ' ' then atStart true t
    else atStart (c = CodePoint.lineFeed) t

variable {start : Bool} {t t' u u' : Text}

theorem withoutIndents_append (start : Bool) (t u : Text) :
    withoutIndents start (t ++ u)
      = withoutIndents start t ++ withoutIndents (atStart start t) u := by
  induction t generalizing start with
  | nil => rfl
  | cons c t ih =>
    rw [List.cons_append, withoutIndents, withoutIndents, atStart]
    split_ifs with h
    · exact ih true
    · rw [ih, List.cons_append]

theorem atStart_append (start : Bool) (t u : Text) :
    atStart start (t ++ u) = atStart (atStart start t) u := by
  induction t generalizing start with
  | nil => rfl
  | cons c t ih =>
    rw [List.cons_append, atStart, atStart]
    split_ifs with h
    · exact ih true
    · exact ih _

/-- **The lines without spaces in front**, from a text without them.  What is in front of the first
line may take part in it. -/
theorem splitLines_withoutIndents (t : Text) :
    (withoutIndents true t).splitLines = t.unindentedLines ∧
      ∀ line lines, t.splitLines = line :: lines → (withoutIndents false t).splitLines
        = line :: lines.map (List.dropWhile (· = CodePoint.ofChar ' ')) := by
  rw [unindentedLines]
  induction t with
  | nil =>
    refine ⟨rfl, ?_⟩
    rintro line lines ⟨⟩
    rfl
  | cons c t ih =>
    obtain ⟨line, lines, ht⟩ := exists_splitLines t
    by_cases hfeed : c = CodePoint.lineFeed
    · have hspace : c ≠ CodePoint.ofChar ' ' := by
        rw [hfeed]
        decide
      have hwithout : ∀ start, withoutIndents start (c :: t)
          = CodePoint.lineFeed :: withoutIndents true t := by
        intro start
        rw [withoutIndents, if_neg (fun h => hspace h.2), decide_eq_true hfeed, hfeed]
      rw [hwithout, hwithout, hfeed, splitLines_cons_lineFeed, splitLines_cons_lineFeed, ih.1]
      refine ⟨rfl, ?_⟩
      rintro line lines ⟨⟩
      rfl
    · rw [splitLines_cons hfeed ht]
      have hplain : ∀ start : Bool, ¬ (start ∧ c = CodePoint.ofChar ' ') →
          (withoutIndents start (c :: t)).splitLines
            = (c :: line) :: lines.map (List.dropWhile (· = CodePoint.ofChar ' ')) := by
        intro start hstart
        rw [withoutIndents, if_neg hstart, decide_eq_false hfeed]
        exact splitLines_cons hfeed (ih.2 line lines ht)
      refine ⟨?_, ?_⟩
      · by_cases hspace : c = CodePoint.ofChar ' '
        · rw [withoutIndents, if_pos ⟨rfl, hspace⟩, ih.1, ht, List.map_cons, List.map_cons,
            List.dropWhile_cons_of_pos (by simpa using hspace)]
        · rw [hplain true (fun h => hspace h.2), List.map_cons,
            List.dropWhile_cons_of_neg (by simpa using hspace)]
      · rintro _ _ ⟨⟩
        exact hplain false (fun h => Bool.false_ne_true h.1)

/-- **Texts that come out alike** without the spaces in front of their lines, and leave off alike at
the beginning of a line or within one. -/
def Realigned (start : Bool) (t t' : Text) : Prop :=
  withoutIndents start t = withoutIndents start t' ∧ atStart start t = atStart start t'

theorem Realigned.refl (start : Bool) (t : Text) : Realigned start t t := ⟨rfl, rfl⟩

theorem Realigned.append (h : Realigned start t t') (hu : Realigned (atStart start t) u u') :
    Realigned start (t ++ u) (t' ++ u') := by
  rw [Realigned, withoutIndents_append, withoutIndents_append, atStart_append, atStart_append,
    ← h.1, ← h.2]
  exact ⟨congrArg _ hu.1, hu.2⟩

/-- Behind a line feed a line begins. -/
theorem Realigned.lineFeed (h : Realigned true t t') (start : Bool) :
    Realigned start (CodePoint.lineFeed :: t) (CodePoint.lineFeed :: t') := by
  refine (Realigned.refl start [CodePoint.lineFeed]).append ?_
  have hstart : atStart start [CodePoint.lineFeed] = true := by cases start <;> rfl
  rwa [hstart]

theorem realigned_spaces (m n : Nat) :
    Realigned true (List.replicate m (CodePoint.ofChar ' '))
      (List.replicate n (CodePoint.ofChar ' ')) := by
  have hdrop : ∀ n, withoutIndents true (List.replicate n (CodePoint.ofChar ' ')) = [] ∧
      atStart true (List.replicate n (CodePoint.ofChar ' ')) = true := by
    intro n
    induction n with
    | zero => exact ⟨rfl, rfl⟩
    | succ n ih =>
      rw [List.replicate_succ, withoutIndents, atStart, if_pos ⟨rfl, rfl⟩, if_pos ⟨rfl, rfl⟩]
      exact ih
  exact ⟨(hdrop m).1.trans (hdrop n).1.symm, (hdrop m).2.trans (hdrop n).2.symm⟩

/-- Behind the lines of a block another line begins. -/
theorem atStart_ofLines (lines : List Text) : atStart true (ofLines lines) = true := by
  induction lines with
  | nil => rfl
  | cons line lines ih =>
    have hfeed : ∀ start, atStart start (CodePoint.lineFeed :: ofLines lines)
        = atStart true (ofLines lines) := by
      intro start
      cases start <;> rfl
    rw [ofLines_cons, atStart_append, hfeed, ih]

/-- Lines in pairs that come out alike. -/
theorem realigned_ofLines {α : Type} {as : List α} {f g : α → Text}
    (h : ∀ a ∈ as, Realigned true (f a) (g a)) :
    Realigned true (ofLines (as.map f)) (ofLines (as.map g)) := by
  induction as with
  | nil => exact .refl true _
  | cons a as ih =>
    rw [List.forall_mem_cons] at h
    rw [List.map_cons, List.map_cons, ofLines_cons, ofLines_cons, List.isEmpty_map,
      List.isEmpty_map]
    exact (h.1.append (.refl _ _)).append ((ih h.2).lineFeed _)

theorem Realigned.unindentedLines_eq (h : Realigned true t t') :
    t.unindentedLines = t'.unindentedLines := by
  rw [← (splitLines_withoutIndents t).1, ← (splitLines_withoutIndents t').1, h.1]

end Text

/-! ### Layouts -/

variable {opts : Options} {w w' : Nat}

theorem Options.realigned_indent (opts opts' : Options) (depth depth' : Int) :
    Text.Realigned true (opts.indent depth) (opts'.indent depth') :=
  Text.realigned_spaces _ _

/-- **A block** with two indentations, from its lines. -/
theorem Options.realigned_block {α : Type} {as : List α} {f g : α → Text}
    (h : ∀ a ∈ as, Text.Realigned true (f a) (g a)) (opts opts' : Options) (depth depth' : Int)
    (first last : Char) (start : Bool) :
    Text.Realigned start (opts.block depth first last (as.map f))
      (opts'.block depth' first last (as.map g)) := by
  have hindent : Text.Realigned (Text.atStart true (Text.ofLines (as.map f)))
      (opts.indent depth) (opts'.indent depth') := by
    rw [Text.atStart_ofLines]
    exact opts.realigned_indent opts' depth depth'
  have hlines := (Text.realigned_ofLines h).append hindent
  exact (Text.Realigned.refl start [CodePoint.ofChar first]).append
    ((hlines.append (.refl _ _)).lineFeed _)

/-- **The layouts of a value** with two indentations, from where they begin on their first line. -/
theorem Json.realigned_layout (j : Json) (depth depth' : Int) (start : Bool) :
    Text.Realigned start (j.layout { opts with indentWidth := w } depth)
      (j.layout { opts with indentWidth := w' } depth') := by
  induction j using Json.induction generalizing depth depth' start with
  | null | bool | number | string => exact .refl start _
  | array items ih =>
    rw [layout, layout, itemLines_eq_map, itemLines_eq_map]
    refine Options.realigned_block (fun j hj => ?_) _ _ depth depth' '[' ']' start
    exact (Options.realigned_indent _ _ _ _).append (ih j hj _ _ _)
  | object members ih =>
    rw [layout, layout, memberLines_eq_map, memberLines_eq_map]
    refine Options.realigned_block (fun m hm => ?_) _ _ depth depth' '{' '}' start
    -- the key and the colon are the same in both
    exact (((Options.realigned_indent _ _ _ _).append (.refl _ _)).append (.refl _ _)).append
      (ih m hm _ _ _)

/-! ### Faults -/

theorem findSome?_flatMap_congr {α β γ : Type} {as : List α} {f f' : α → List β}
    {g g' : β → Option γ} (h : ∀ a ∈ as, (f a).findSome? g = (f' a).findSome? g') :
    (as.flatMap f).findSome? g = (as.flatMap f').findSome? g' := by
  induction as with
  | nil => rfl
  | cons a as ih =>
    rw [List.forall_mem_cons] at h
    rw [List.flatMap_cons, List.flatMap_cons, List.findSome?_append, List.findSome?_append, h.1,
      ih h.2]

namespace Json

theorem children_toDatum (j : Json) : j.toDatum.children = j.parts.map toDatum := by
  cases j with
  | array items => rw [toDatum, Datum.children, parts, itemsToData_eq_map]
  | object members =>
    rw [toDatum, Datum.children, parts, membersToData_eq_map, List.map_map, List.map_map]
    rfl
  | _ => rfl

theorem isContainer_toDatum {j : Json} (hj : 0 < j.nesting) : j.toDatum.isContainer = true := by
  cases j with
  | array items => rfl
  | object members => rfl
  | _ => exact absurd hj (Nat.lt_irrefl 0)

theorem isContainer_toDatum_of_nesting_eq_zero {j : Json} (hj : j.nesting = 0) :
    j.toDatum.isContainer = false := by
  cases j with
  | array items => exact absurd hj (Nat.ne_of_gt (nesting_array_pos items))
  | object members => exact absurd hj (Nat.ne_of_gt (nesting_object_pos members))
  | _ => rfl

/-- **The fault of a value** does not depend on the indentation, as long as the lines can be
indented. -/
theorem findSome?_fault?_toDatum {j : Json} {depth depth' : Int}
    (h : Options.Fits { opts with indentWidth := w } depth j)
    (h' : Options.Fits { opts with indentWidth := w' } depth' j) :
    (j.toDatum.containersAt depth).findSome? (Options.fault? { opts with indentWidth := w })
      = (j.toDatum.containersAt depth').findSome?
          (Options.fault? { opts with indentWidth := w' }) := by
  induction j using Json.induction_parts generalizing depth depth' with
  | scalar j hj =>
    have hscalar : j.toDatum.isContainer = false := isContainer_toDatum_of_nesting_eq_zero hj
    rw [Datum.containersAt_of_not_isContainer hscalar,
      Datum.containersAt_of_not_isContainer hscalar]
    rfl
  | container c hc ih =>
    obtain ⟨⟨hown, hnext⟩, hparts⟩ := (Options.fits_iff_parts hc).mp h
    obtain ⟨⟨hown', hnext'⟩, hparts'⟩ := (Options.fits_iff_parts hc).mp h'
    -- the fault of its own scalars, or else the first one of the containers in it
    have hrest : (c.toDatum.children.flatMap (Datum.containersAt (depth + 1))).findSome?
        (Options.fault? { opts with indentWidth := w })
          = (c.toDatum.children.flatMap (Datum.containersAt (depth' + 1))).findSome?
            (Options.fault? { opts with indentWidth := w' }) := by
      refine findSome?_flatMap_congr ?_
      rw [children_toDatum, List.forall_mem_map]
      exact fun j hj => ih j hj (hparts j hj) (hparts' j hj)
    rw [Datum.containersAt_of_isContainer (isContainer_toDatum hc),
      Datum.containersAt_of_isContainer (isContainer_toDatum hc), List.findSome?_cons,
      List.findSome?_cons, hrest, Options.fault?_of_checkIndent _ hown hnext,
      Options.fault?_of_checkIndent _ hown' hnext']
    rfl

theorem realigned_placed (j : Json) (depth depth' : Int) (afterKey embedded : Bool) :
    Text.Realigned true (j.placed { opts with indentWidth := w } ⟨depth, afterKey, embedded⟩)
      (j.placed { opts with indentWidth := w' } ⟨depth', afterKey, embedded⟩) := by
  have hstart : Text.Realigned true
      (if afterKey then [] else Options.indent { opts with indentWidth := w } depth)
      (if afterKey then [] else Options.indent { opts with indentWidth := w' } depth') := by
    cases afterKey
    · exact Options.realigned_indent _ _ _ _
    · exact .refl true []
  exact hstart.append ((j.realigned_layout depth depth' _).append (.refl _ _))

end Json

/-! ### What is laid out -/

namespace Options

/-- A scalar stands behind no indentation. -/
theorem render_of_nesting_eq_zero {j : Json} (hj : j.nesting = 0) (depth depth' : Int)
    (afterKey : Bool) :
    render { opts with indentWidth := w } j.toDatum depth afterKey
      = render { opts with indentWidth := w' } j.toDatum depth' afterKey := by
  cases j with
  | array items => exact absurd hj (Nat.ne_of_gt (Json.nesting_array_pos items))
  | object members => exact absurd hj (Nat.ne_of_gt (Json.nesting_object_pos members))
  | _ => rfl

/-- **Two layouts of a value** that differ in the width of the indentation and in the depth they
start at.  As long as the lines can be indented, they fail alike, with the same error.  Their texts
have the same lines but for the spaces in front of them, whatever the strings hold. -/
theorem render_realigned (opts : Options) (w w' : Nat) (j : Json) (depth depth' : Int)
    (afterKey : Bool) :
    (Fits { opts with indentWidth := w } depth j → Fits { opts with indentWidth := w' } depth' j →
      ∀ e, render { opts with indentWidth := w } j.toDatum depth afterKey = .error e ↔
        render { opts with indentWidth := w' } j.toDatum depth' afterKey = .error e) ∧
    ∀ t t', render { opts with indentWidth := w } j.toDatum depth afterKey = .ok t →
      render { opts with indentWidth := w' } j.toDatum depth' afterKey = .ok t' →
      t.unindentedLines = t'.unindentedLines := by
  refine ⟨fun h h' e => ?_, fun t t' ht ht' => ?_⟩
  · rcases Nat.eq_zero_or_pos j.nesting with hj | hj
    · rw [render_of_nesting_eq_zero hj depth depth']
    · rw [render_eq_error_iff (Json.isContainer_toDatum hj),
        render_eq_error_iff (Json.isContainer_toDatum hj), Json.findSome?_fault?_toDatum h h']
  · rcases render_toDatum j depth afterKey with ⟨-, h⟩ | ⟨e, -, h⟩
    · rcases render_toDatum j depth' afterKey with ⟨-, h'⟩ | ⟨e, -, h'⟩
      · rw [h, Except.ok.injEq] at ht
        rw [h', Except.ok.injEq] at ht'
        rw [← ht, ← ht']
        split_ifs
        · exact (j.realigned_placed depth depth' afterKey false).unindentedLines_eq
        · exact (j.realigned_layout depth depth' true).unindentedLines_eq
      · cases h'.symm.trans ht'
    · cases h.symm.trans ht

/-- A string that goes on behind a line feed and two spaces, laid out without any indentation and
with one, and an infinity that is refused both times. -/
theorem render_realigned_spaces_in_string :
    (render { indentWidth := 0 } (Json.array [.string "a\n  b"]).toDatum 3 false
          = .ok "[\n\"a\n  b\"\n]\n" ∧
        render { indentWidth := 2 } (Json.array [.string "a\n  b"]).toDatum 1 false
          = .ok "  [\n    \"a\n  b\"\n  ]\n" ∧
        Text.unindentedLines "[\n\"a\n  b\"\n]\n"
          = Text.unindentedLines "  [\n    \"a\n  b\"\n  ]\n") ∧
      Fits { indentWidth := 0 } 3 (.array [.number (.double (.infinite true))]) ∧
      Fits { indentWidth := 2 } 1 (.array [.number (.double (.infinite true))]) ∧
      render { indentWidth := 0 } (Json.array [.number (.double (.infinite true))]).toDatum 3 false
        = .error (.notFinite (.infinite true)) ∧
      render { indentWidth := 2 } (Json.array [.number (.double (.infinite true))]).toDatum 1 false
        = .error (.notFinite (.infinite true)) := by
  have hnone : render { indentWidth := 0 } (Json.array [.string "a\n  b"]).toDatum 3 false
      = .ok "[\n\"a\n  b\"\n]\n" := by decide +kernel
  have htwo : render { indentWidth := 2 } (Json.array [.string "a\n  b"]).toDatum 1 false
      = .ok "  [\n    \"a\n  b\"\n  ]\n" := by decide +kernel
  have hfits : Fits { indentWidth := 0 } 3 (.array [.number (.double (.infinite true))]) := by
    unfold Fits
    decide +kernel
  have hfits' : Fits { indentWidth := 2 } 1 (.array [.number (.double (.infinite true))]) := by
    unfold Fits
    decide +kernel
  have herror : render { indentWidth := 2 }
      (Json.array [.number (.double (.infinite true))]).toDatum 1 false
        = .error (.notFinite (.infinite true)) := by decide +kernel
  have hlines := (render_realigned {} 0 2 _ 3 1 false).2 _ _ hnone htwo
  have herror' := ((render_realigned {} 0 2 _ 3 1 false).1 hfits hfits' _).mpr herror
  exact ⟨⟨hnone, htwo, hlines⟩, hfits, hfits', herror', herror⟩

/-- An empty array has a text, but not where its parts would stand behind more spaces than a machine
word counts. -/
theorem not_render_realigned_of_wide_indent :
    ¬ ∀ (opts : Options) (w w' : Nat) (j : Json) (depth depth' : Int) (afterKey : Bool),
      0 ≤ depth → 0 ≤ depth' →
      ((∃ t, render { opts with indentWidth := w } j.toDatum depth afterKey = .ok t) ↔
        ∃ t, render { opts with indentWidth := w' } j.toDatum depth' afterKey = .ok t) := by
  intro h
  have hnarrow : render { indentWidth := 2 } (Json.array []).toDatum 0 false = .ok "[\n]\n" := by
    decide +kernel
  have hwide : render { indentWidth := 2 ^ 63 } (Json.array []).toDatum 0 false
      = .error .indentOverflow := by decide +kernel
  obtain ⟨t, ht⟩ := (h {} 2 (2 ^ 63) (.array []) 0 0 false le_rfl le_rfl).mp ⟨_, hnarrow⟩
  cases hwide.symm.trans ht

end Options

end JsonLayout
