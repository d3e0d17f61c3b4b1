import JsonLayout.Proofs.Layout.Indented
import JsonLayout.Proofs.Layout.Strings
import Mathlib.Algebra.BigOperators.Group.List.Basic
import Mathlib.Algebra.Order.Ring.Nat

/-!
# What escaping changes

Escaping makes strings longer, and only those that hold a quote, a backslash or a control character.
Nothing else in a layout depends on it, so an escaped layout is longer than the one without escapes
by what the escapes add to all strings and keys together, and the two are the same if that is
nothing.  Of control characters an escaped layout has none but the line feeds that end its lines.

## Main definitions

* `Text.escapeCost`, `Json.escapeCost`: how many characters escaping adds.
* `Json.lineFeeds`: how many line feeds a layout has.

## Main results

* `Text.escapeCost_eq_zero_iff`: escaping adds something to every string that is not clean.
* `Json.length_layout_of_escapeStrings`: the length of an escaped layout.
* `Json.filter_isControl_layout`: the control characters of an escaped layout.
* `format_eq_format_escaped_iff`: when a text is the same with escapes and without.
-/

namespace JsonLayout

/-! ### Strings -/

namespace CodePoint

/-- A character other than quotes, backslashes and control characters. -/
def IsClean (c : CodePoint) : Prop :=
  c ≠ CodePoint.ofChar '"' ∧ c ≠ CodePoint.ofChar '\\' ∧ 0x20 ≤ c.val

instance : DecidablePred IsClean := fun _ => inferInstanceAs (Decidable (_ ∧ _ ∧ _))

variable {c : CodePoint}

/-- A clean character stands for itself. -/
theorem escaped_eq_self (h : c.IsClean) : c.escaped = [c] := by
  have hcontrol : c.isControl = false := decide_eq_false (Nat.not_lt.mpr h.2.2)
  have hne : ∀ d : CodePoint, d.isControl = true → c ≠ d := by
    rintro _ hd rfl
    exact Bool.false_ne_true (hcontrol.symm.trans hd)
  have hval : 0x20 ≤ c.val := h.2.2
  rw [escaped, if_neg h.1, if_neg h.2.1, if_neg (hne _ rfl), if_neg (hne _ rfl), if_neg (hne _ rfl),
    if_neg (by omega), if_neg (by omega), hcontrol, if_neg Bool.false_ne_true]

/-- Every other one is written with more characters than one. -/
theorem one_lt_length_escaped (h : ¬ c.IsClean) : 1 < c.escaped.length := by
  unfold escaped
  split_ifs with hq hb hn hr ht h8 hc hcontrol
  · decide
  · decide
  · decide
  · decide
  · decide
  · decide
  · decide
  · simp [Text.ofString]
  · exact absurd ⟨hq, hb, by simpa [isControl] using hcontrol⟩ h

/-- No number is written with control characters. -/
theorem isControl_of_isNumeral (h : c.isNumeral = true) : c.isControl = false := by
  refine decide_eq_false (Nat.not_lt.mpr ?_)
  simp only [isNumeral, isDigit, Bool.or_eq_true, Bool.and_eq_true, decide_eq_true_eq,
    List.contains_iff_mem, List.mem_cons, List.not_mem_nil, or_false] at h
  rcases h with ((h | h) | h) | rfl | rfl | rfl
  · omega
  · omega
  · omega
  · decide
  · decide
  · decide

end CodePoint

namespace Text

/-- How many characters escaping adds to a string. -/
def escapeCost (s : Text) : Nat := (s.map fun c => c.escaped.length - 1).sum

theorem length_flatMap_escaped (s : Text) :
    (s.flatMap CodePoint.escaped).length = s.length + s.escapeCost := by
  induction s with
  | nil => rfl
  | cons c s ih =>
    have hpos : 0 < c.escaped.length := by
      by_cases h : c.IsClean
      · rw [CodePoint.escaped_eq_self h]
        exact Nat.one_pos
      · exact Nat.zero_lt_of_lt (CodePoint.one_lt_length_escaped h)
    rw [escapeCost] at ih ⊢
    rw [List.flatMap_cons, List.length_append, ih, List.length_cons, List.map_cons, List.sum_cons]
    omega

/-- **Escaping adds nothing** to the clean strings, and something to all others. -/
theorem escapeCost_eq_zero_iff {s : Text} : s.escapeCost = 0 ↔ s.IsClean := by
  rw [escapeCost, List.sum_eq_zero_iff_forall_eq_nat, List.forall_mem_map, IsClean]
  refine forall₂_congr fun c _ => ?_
  by_cases h : c.IsClean
  · rw [CodePoint.escaped_eq_self h]
    exact iff_of_true rfl h
  · have := CodePoint.one_lt_length_escaped h
    exact iff_of_false (by omega) h

theorem flatMap_escaped_of_isClean {s : Text} (h : s.IsClean) :
    s.flatMap CodePoint.escaped = s := by
  induction s with
  | nil => rfl
  | cons c s ih =>
    rw [IsClean, List.forall_mem_cons] at h
    rw [List.flatMap_cons, CodePoint.escaped_eq_self h.1, ih h.2, List.singleton_append]

/-! ### Lines -/

/-- Lines that are each longer than another one, by so much in all. -/
theorem length_ofLines_map {α : Type} {as : List α} {f g : α → Text} {extra : α → Nat}
    (h : ∀ a ∈ as, (g a).length = (f a).length + extra a) :
    (ofLines (as.map g)).length = (ofLines (as.map f)).length + (as.map extra).sum := by
  induction as with
  | nil => rfl
  | cons a as ih =>
    rw [List.forall_mem_cons] at h
    have hempty : (as.map g).isEmpty = (as.map f).isEmpty := by
      rw [List.isEmpty_map, List.isEmpty_map]
    simp only [List.map_cons, ofLines_cons, hempty, List.length_append, List.length_cons, ih h.2,
      h.1, List.sum_cons]
    omega

/-- Lines of which the control characters are line feeds: they end in one more each. -/
theorem filter_isControl_ofLines {α : Type} {as : List α} {f : α → Text} {count : α → Nat}
    (h : ∀ a ∈ as, (f a).filter CodePoint.isControl
      = List.replicate (count a) CodePoint.lineFeed) :
    (ofLines (as.map f)).filter CodePoint.isControl
      = List.replicate (as.map fun a => count a + 1).sum CodePoint.lineFeed := by
  induction as with
  | nil => rfl
  | cons a as ih =>
    rw [List.forall_mem_cons] at h
    have hcomma : List.filter CodePoint.isControl
        (if (as.map f).isEmpty then [] else [CodePoint.ofChar ',']) = [] := by
      split_ifs <;> rfl
    rw [List.map_cons, ofLines_cons, List.filter_append, List.filter_append, hcomma, h.1,
      List.append_nil, List.filter_cons_of_pos rfl, ih h.2, List.map_cons, List.sum_cons,
      List.replicate_append_replicate.symm, List.replicate_succ', List.append_assoc,
      List.singleton_append]

end Text

/-! ### Layouts -/

namespace Options

variable {opts opts' : Options}

theorem length_stringText (hraw : opts.escapeStrings = false) (hescape : opts'.escapeStrings = true)
    (s : Text) : (opts'.stringText s).length = (opts.stringText s).length + s.escapeCost := by
  rw [stringText, stringText, hraw, hescape, if_pos rfl, if_neg Bool.false_ne_true,
    List.length_cons, List.length_cons, List.length_append, List.length_append,
    s.length_flatMap_escaped]
  omega

/-- A clean string is written the same way by all options. -/
theorem stringText_of_isClean {s : Text} (h : s.IsClean) :
    opts.stringText s = CodePoint.ofChar '"' :: (s ++ [CodePoint.ofChar '"']) := by
  rw [stringText, Text.flatMap_escaped_of_isClean h, ite_self]

theorem filter_isControl_stringText (hescape : opts.escapeStrings = true) (s : Text) :
    (opts.stringText s).filter CodePoint.isControl = [] := by
  have hbody : ∀ c ∈ s.flatMap CodePoint.escaped, ¬ c.isControl = true := by
    rw [List.forall_mem_flatMap]
    exact fun c _ d hd => ne_true_of_eq_false (c.isControl_escaped d hd)
  rw [stringText, hescape, if_pos rfl, List.filter_cons_of_neg (by decide), List.filter_append,
    List.filter_eq_nil_iff.mpr hbody]
  rfl

theorem filter_isControl_indent (opts : Options) (depth : Int) :
    (opts.indent depth).filter CodePoint.isControl = [] := by
  rw [List.filter_eq_nil_iff]
  intro c hc
  rw [List.eq_of_mem_replicate hc]
  decide

theorem length_block (depth : Int) (first last : Char) (lines : List Text) :
    (opts.block depth first last lines).length
      = (Text.ofLines lines).length + ((opts.indent depth).length + 3) := by
  simp only [block, List.length_cons, List.length_append, List.length_nil]
  omega

/-- A block has a line feed behind its opening bracket, and those of its lines. -/
theorem filter_isControl_block (depth : Int) {first last : Char} {lines : List Text} {n : Nat}
    (hfirst : (CodePoint.ofChar first).isControl = false)
    (hlast : (CodePoint.ofChar last).isControl = false)
    (hlines : (Text.ofLines lines).filter CodePoint.isControl
      = List.replicate n CodePoint.lineFeed) :
    (opts.block depth first last lines).filter CodePoint.isControl
      = List.replicate (n + 1) CodePoint.lineFeed := by
  rw [block, List.filter_cons_of_neg (ne_true_of_eq_false hfirst), List.filter_cons_of_pos rfl,
    List.filter_append, List.filter_append, hlines, filter_isControl_indent,
    List.filter_cons_of_neg (ne_true_of_eq_false hlast), List.filter_nil, List.append_nil,
    List.append_nil, List.replicate_succ]

end Options

namespace Json

/-- How many characters escaping adds to the strings and keys of a value together. -/
def escapeCost (j : Json) : Nat := (j.strings.map Text.escapeCost).sum

theorem escapeCost_eq_zero_iff {j : Json} : j.escapeCost = 0 ↔ ∀ s ∈ j.strings, s.IsClean := by
  rw [escapeCost, List.sum_eq_zero_iff_forall_eq_nat, List.forall_mem_map]
  exact forall₂_congr fun s _ => s.escapeCost_eq_zero_iff

theorem escapeCost_array (items : List Json) :
    (array items).escapeCost = (items.map escapeCost).sum := by
  rw [escapeCost, strings_array]
  induction items with
  | nil => rfl
  | cons j items ih =>
    rw [List.flatMap_cons, List.map_append, List.sum_append, ih, List.map_cons, List.sum_cons,
      escapeCost]

theorem escapeCost_object (members : List (Text × Json)) :
    (object members).escapeCost
      = (members.map fun m => m.1.escapeCost + m.2.escapeCost).sum := by
  rw [escapeCost, strings_object]
  induction members with
  | nil => rfl
  | cons m members ih =>
    rw [List.flatMap_cons, List.map_append, List.sum_append, ih, List.map_cons, List.sum_cons,
      List.map_cons, List.sum_cons, escapeCost]

/-- **The length of an escaped layout** is that of the one without escapes, and what they add. -/
theorem length_layout_of_escapeStrings {opts opts' : Options}
    (hwidth : opts.indentWidth = opts'.indentWidth) (hraw : opts.escapeStrings = false)
    (hescape : opts'.escapeStrings = true) (j : Json) (depth : Int) :
    (j.layout opts' depth).length = (j.layout opts depth).length + j.escapeCost := by
  have hindent : ∀ depth, opts'.indent depth = opts.indent depth := by
    intro depth
    rw [Options.indent, Options.indent, Options.spaces, Options.spaces, hwidth]
  induction j using Json.induction generalizing depth with
  | null | bool | number => rfl
  | string s => exact Options.length_stringText hraw hescape s
  | array items ih =>
    have hlines : ∀ j ∈ items, (j.itemLine opts' (depth + 1)).length
        = (j.itemLine opts (depth + 1)).length + j.escapeCost := by
      intro j hj
      rw [itemLine, itemLine, List.length_append, List.length_append, ih j hj, hindent,
        Nat.add_assoc]
    rw [layout, layout, itemLines_eq_map, itemLines_eq_map, Options.length_block,
      Options.length_block, Text.length_ofLines_map hlines, hindent, escapeCost_array]
    omega
  | object members ih =>
    have hlines : ∀ m ∈ members, (memberLine opts' (depth + 1) m).length
        = (memberLine opts (depth + 1) m).length + (m.1.escapeCost + m.2.escapeCost) := by
      intro m hm
      simp only [memberLine, List.length_append, ih m hm, hindent,
        Options.length_stringText hraw hescape]
      omega
    rw [layout, layout, memberLines_eq_map, memberLines_eq_map, Options.length_block,
      Options.length_block, Text.length_ofLines_map hlines, hindent, escapeCost_object]
    omega

mutual

/-- How many line feeds the layout of a value has: one behind the bracket that opens a container,
and one behind each part of it. -/
def lineFeeds : Json → Nat
  | .array items => itemsLineFeeds items + 1
  | .object members => membersLineFeeds members + 1
  | _ => 0

/-- The line feeds of all items, and behind each of them. -/
def itemsLineFeeds : List Json → Nat
  | [] => 0
  | j :: items => j.lineFeeds + 1 + itemsLineFeeds items

/-- The line feeds of the values of all members, and behind each of them. -/
def membersLineFeeds : List (Text × Json) → Nat
  | [] => 0
  | (_, j) :: members => j.lineFeeds + 1 + membersLineFeeds members

end

theorem itemsLineFeeds_eq (items : List Json) :
    itemsLineFeeds items = (items.map fun j => j.lineFeeds + 1).sum := by
  induction items with
  | nil => rfl
  | cons j items ih => rw [itemsLineFeeds, ih, List.map_cons, List.sum_cons]

theorem membersLineFeeds_eq (members : List (Text × Json)) :
    membersLineFeeds members = (members.map fun m => m.2.lineFeeds + 1).sum := by
  induction members with
  | nil => rfl
  | cons m members ih => rw [membersLineFeeds, ih, List.map_cons, List.sum_cons]

/-- **The control characters of an escaped layout** are its line feeds. -/
theorem filter_isControl_layout {opts : Options} (hescape : opts.escapeStrings = true) (j : Json)
    (depth : Int) : (j.layout opts depth).filter CodePoint.isControl
      = List.replicate j.lineFeeds CodePoint.lineFeed := by
  induction j using Json.induction generalizing depth with
  | null => rfl
  | bool b => cases b <;> rfl
  | number n =>
    refine List.filter_eq_nil_iff.mpr fun c hc => ?_
    exact ne_true_of_eq_false (CodePoint.isControl_of_isNumeral (n.numberText_text.isNumeral c hc))
  | string s => exact Options.filter_isControl_stringText hescape s
  | array items ih =>
    have hlines : ∀ j ∈ items, (j.itemLine opts (depth + 1)).filter CodePoint.isControl
        = List.replicate j.lineFeeds CodePoint.lineFeed := by
      intro j hj
      rw [itemLine, List.filter_append, opts.filter_isControl_indent, List.nil_append, ih j hj]
    rw [layout, itemLines_eq_map, lineFeeds, itemsLineFeeds_eq]
    exact Options.filter_isControl_block depth rfl rfl (Text.filter_isControl_ofLines hlines)
  | object members ih =>
    have hlines : ∀ m ∈ members, (memberLine opts (depth + 1) m).filter CodePoint.isControl
        = List.replicate m.2.lineFeeds CodePoint.lineFeed := by
      intro m hm
      have hcolon : (": " : Text).filter CodePoint.isControl = [] := rfl
      rw [memberLine, List.filter_append, List.filter_append, List.filter_append,
        opts.filter_isControl_indent, Options.filter_isControl_stringText hescape, hcolon, ih m hm]
      rfl
    rw [layout, memberLines_eq_map, lineFeeds, membersLineFeeds_eq]
    exact Options.filter_isControl_block depth rfl rfl (Text.filter_isControl_ofLines hlines)

end Json

/-! ### Whole texts -/

/-- **A text with escapes and one without** are the same if and only if no string and no key holds
anything that has to be escaped; otherwise the one with escapes is longer.  It has no control
characters but the line feeds of its layout, of which an array ends in one. -/
theorem format_eq_format_escaped_iff {opts : Options} {j : Json} {raw escaped : Text}
    (hraw : ({ opts with escapeStrings := false } : Options).format j.toDatum = .ok raw)
    (hescaped : ({ opts with escapeStrings := true } : Options).format j.toDatum = .ok escaped) :
    (raw = escaped ↔ ∀ s ∈ j.strings, s.IsClean) ∧
      ((¬ ∀ s ∈ j.strings, s.IsClean) → raw.length < escaped.length) ∧
      escaped.filter CodePoint.isControl
        = List.replicate (j.lineFeeds + (j.lineEnd false).length) CodePoint.lineFeed := by
  obtain ⟨-, rfl⟩ := Options.format_eq_ok_iff.mp hraw
  obtain ⟨-, rfl⟩ := Options.format_eq_ok_iff.mp hescaped
  have hlength : (j.layout { opts with escapeStrings := true } 0).length
      = (j.layout { opts with escapeStrings := false } 0).length + j.escapeCost := by
    refine Json.length_layout_of_escapeStrings ?_ ?_ ?_ j 0 <;> rfl
  refine ⟨⟨fun heq => ?_, fun hclean => ?_⟩, fun hunclean => ?_, ?_⟩
  · rw [← List.append_cancel_right heq] at hlength
    exact Json.escapeCost_eq_zero_iff.mp (Nat.left_eq_add.mp hlength)
  · have hstrings : ∀ s ∈ j.strings, Options.stringText { opts with escapeStrings := false } s
        = Options.stringText { opts with escapeStrings := true } s := by
      intro s hs
      rw [Options.stringText_of_isClean (hclean s hs), Options.stringText_of_isClean (hclean s hs)]
    have hlayout : j.layout { opts with escapeStrings := false } 0
        = j.layout { opts with escapeStrings := true } 0 := by
      refine Json.layout_congr_of_strings ?_ hstrings 0
      rfl
    rw [hlayout]
  · have hcost := Nat.pos_of_ne_zero (mt Json.escapeCost_eq_zero_iff.mp hunclean)
    rw [List.length_append, List.length_append]
    omega
  · have hend : (j.lineEnd false).filter CodePoint.isControl
        = List.replicate (j.lineEnd false).length CodePoint.lineFeed := by
      cases j <;> rfl
    rw [List.filter_append, Json.filter_isControl_layout rfl, hend,
      List.replicate_append_replicate]

/-- A key that is a quote, and a line feed that is no line end of the layout. -/
theorem format_ne_format_escaped_of_quote :
    Options.format ⟨2, false, false⟩ (Json.object [("\"", .string "\n")]).toDatum
        = .ok "\x7b\n  \"\"\": \"\n\"\n\x7d" ∧
      Options.format ⟨2, true, false⟩ (Json.object [("\"", .string "\n")]).toDatum
        = .ok "\x7b\n  \"\\\"\": \"\\n\"\n\x7d" ∧
      ("\x7b\n  \"\"\": \"\n\"\n\x7d" : Text) ≠ "\x7b\n  \"\\\"\": \"\\n\"\n\x7d" ∧
      ("\x7b\n  \"\"\": \"\n\"\n\x7d" : Text).length
        < ("\x7b\n  \"\\\"\": \"\\n\"\n\x7d" : Text).length ∧
      ("\x7b\n  \"\\\"\": \"\\n\"\n\x7d" : Text).filter CodePoint.isControl
        = List.replicate 2 CodePoint.lineFeed := by
  have hraw : Options.format ⟨2, false, false⟩ (Json.object [("\"", .string "\n")]).toDatum
      = .ok "\x7b\n  \"\"\": \"\n\"\n\x7d" := by decide +kernel
  have hescaped : Options.format ⟨2, true, false⟩ (Json.object [("\"", .string "\n")]).toDatum
      = .ok "\x7b\n  \"\\\"\": \"\\n\"\n\x7d" := by decide +kernel
  have hunclean : ¬ ∀ s ∈ (Json.object [("\"", .string "\n")]).strings, s.IsClean := by
    decide +kernel
  obtain ⟨hiff, hlonger, hfeeds⟩ := @format_eq_format_escaped_iff {} _ _ _ hraw hescaped
  exact ⟨hraw, hescaped, mt hiff.mp hunclean, hlonger hunclean, hfeeds⟩

end JsonLayout
