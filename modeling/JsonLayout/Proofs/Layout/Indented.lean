import JsonLayout.Proofs.Layout.Ends
import JsonLayout.Proofs.Layout.Format
import JsonLayout.Proofs.Text.Lines

/-!
# The indentation of a layout

A reader who sees nothing of a layout but the ends of its lines can say how far each line is
indented: a level is kept, a line that begins with a closing bracket lowers it, a line that ends
with an opening one raises it.  Brackets in strings do not count, since a line with a string begins
and ends with something else.

## Main definitions

* `Text.levelBehind?`, `Text.levelBehindAll?`: the level kept over one line and over many, as long
  as they are indented for it.
* `Text.Indented`: a text whose lines lead from one level to another.
* `Options.IndentedAt`: a text that may stand in a line at some depth.

## Main results

* `Text.Indented.append`: two texts with a line feed between them.
* `Options.indentedAt_block`: a container, from the lines of its parts.
* `Json.indentedAt_layout`: a value, wherever it stands in a line.
* `Options.render_indented`: what is laid out at some depth.
-/

namespace JsonLayout

/-! ### Levels -/

namespace CodePoint

/-- The brackets that a container begins with. -/
def isOpening (c : CodePoint) : Bool := c = ofChar '[' || c = ofChar '{'

/-- The brackets that a container ends with. -/
def isClosing (c : CodePoint) : Bool := c = ofChar ']' || c = ofChar '}'

variable {c : CodePoint}

/-- A value does not begin as a container ends. -/
theorem isClosing_of_startsValue (h : c.startsValue) : c.isClosing = false := by
  have hne : ∀ d : CodePoint, d.startsValue = false → c ≠ d := fun d hd => ne_of_class h hd
  simp only [isClosing, hne (ofChar ']') rfl, hne (ofChar '}') rfl, decide_false, Bool.or_false]

theorem isOpening_of_class {p : CodePoint → Bool} (h : p c) (hbracket : p (ofChar '[') = false)
    (hbrace : p (ofChar '{') = false) : c.isOpening = false := by
  simp only [isOpening, ne_of_class h hbracket, ne_of_class h hbrace, decide_false, Bool.or_false]

end CodePoint

namespace Text

/-- How many spaces a line begins with. -/
def leadingSpaces (line : Text) : Nat := (line.takeWhile (· = CodePoint.ofChar ' ')).length

/-- Whether a line begins with a closing bracket, behind its spaces. -/
def closes (line : Text) : Bool :=
  (line.dropWhile (· = CodePoint.ofChar ' ')).head?.any CodePoint.isClosing

/-- Whether a line ends with an opening bracket. -/
def opens (line : Text) : Bool := line.getLast?.any CodePoint.isOpening

/-- The level that a line is written on: a line that closes lowers it. -/
def ownLevel (level : Int) (line : Text) : Int := if line.closes then level - 1 else level

/-- The level behind a line: a line that opens raises it.  There is none behind an empty line, and
none behind a line that does not begin with `width` spaces for each level. -/
def levelBehind? (width : Nat) (level : Int) (line : Text) : Option Int :=
  if line ≠ [] ∧ (line.leadingSpaces : Int) = width * line.ownLevel level then
    some (line.ownLevel level + if line.opens then 1 else 0)
  else none

/-- The level behind some lines, if there is one behind each of them.  If the first one goes on
after a key, no spaces may stand in front of it. -/
def levelBehindAll? (width : Nat) : (afterKey : Bool) → (level : Int) → List Text → Option Int
  | _, level, [] => some level
  | afterKey, level, line :: lines =>
    (line.levelBehind? (if afterKey then 0 else width) level).bind fun level =>
      levelBehindAll? width false level lines

/-- The text without the line feed that it ends in, if it does. -/
def withoutFinalLineFeed (t : Text) : Text :=
  if t.getLast? = some CodePoint.lineFeed then t.dropLast else t

/-- The lines of a text lead from one level to another. -/
def Indented (width : Nat) (afterKey : Bool) (level : Int) (t : Text) (behind : Int) : Prop :=
  levelBehindAll? width afterKey level t.splitLines = some behind

variable {width : Nat} {afterKey : Bool} {level : Int}

theorem levelBehindAll?_append (line : Text) (lines others : List Text) :
    levelBehindAll? width afterKey level (line :: lines ++ others)
      = (levelBehindAll? width afterKey level (line :: lines)).bind fun level =>
          levelBehindAll? width false level others := by
  induction lines generalizing afterKey level line with
  | nil =>
    simp only [List.singleton_append, levelBehindAll?, Option.bind_assoc, Option.bind_some]
  | cons next lines ih =>
    rw [List.cons_append, levelBehindAll?, levelBehindAll?, Option.bind_assoc]
    simp only [ih]

theorem Indented.append {t u : Text} {between behind : Int}
    (ht : Indented width afterKey level t between) (hu : Indented width false between u behind) :
    Indented width afterKey level (t ++ CodePoint.lineFeed :: u) behind := by
  obtain ⟨line, lines, h⟩ := exists_splitLines t
  rw [Indented, h] at ht
  rw [Indented, splitLines_append_cons, h, levelBehindAll?_append, ht, Option.bind_some]
  exact hu

/-! ### One line -/

section Line

variable {c : CodePoint} (hc : c ≠ CodePoint.ofChar ' ') (n : Nat) (t : Text)

include hc

theorem leadingSpaces_line :
    leadingSpaces (List.replicate n (CodePoint.ofChar ' ') ++ c :: t) = n := by
  rw [leadingSpaces, List.takeWhile_append_of_pos (by simp), List.takeWhile_cons_of_neg (by simpa),
    List.append_nil, List.length_replicate]

theorem closes_line :
    closes (List.replicate n (CodePoint.ofChar ' ') ++ c :: t) = c.isClosing := by
  rw [closes, List.dropWhile_append_of_pos (by simp), List.dropWhile_cons_of_neg (by simpa)]
  rfl

/-- **A text of one line**, of which the spaces are counted. -/
theorem indented_line (hline : CodePoint.lineFeed ∉ c :: t) {own : Int}
    (hown : (if c.isClosing then level - 1 else level) = own)
    (hn : (n : Int) = (if afterKey then 0 else width : Nat) * own) :
    Indented width afterKey level (List.replicate n (CodePoint.ofChar ' ') ++ c :: t)
      (own + if opens (c :: t) then 1 else 0) := by
  have hlast : opens (List.replicate n (CodePoint.ofChar ' ') ++ c :: t) = opens (c :: t) := by
    rw [opens, opens, List.getLast?_append_cons]
  have hne : List.replicate n (CodePoint.ofChar ' ') ++ c :: t ≠ [] := by simp
  have hfeed : CodePoint.lineFeed ∉ List.replicate n (CodePoint.ofChar ' ') ++ c :: t := by
    rw [List.mem_append, not_or]
    exact ⟨fun h => absurd (List.eq_of_mem_replicate h) (by decide), hline⟩
  rw [Indented, splitLines_of_not_mem hfeed, levelBehindAll?, levelBehind?, ownLevel,
    closes_line hc, hown, leadingSpaces_line hc, if_pos ⟨hne, hn⟩, hlast]
  rfl

end Line

/-- Behind each line of a block there is a comma, but for the last one. -/
theorem ofLines_cons (line : Text) (lines : List Text) :
    ofLines (line :: lines)
      = line ++ (if lines.isEmpty then [] else [CodePoint.ofChar ',']) ++
        CodePoint.lineFeed :: ofLines lines := by
  cases lines with
  | nil => simp [ofLines, join_singleton]
  | cons next lines =>
    have hjoin := join_cons ",\n" line (List.cons_ne_nil next lines)
    have hne (l : List Text) (x : Text) : (x :: l).isEmpty = false := rfl
    rw [ofLines, hne, hjoin, ofLines, hne]
    simp only [Bool.false_eq_true, if_false, List.append_assoc]
    rfl

theorem opens_concat (t : Text) (c : CodePoint) : opens (t ++ [c]) = c.isOpening := by
  rw [opens, List.getLast?_concat]
  rfl

/-- What may follow on the same line behind a part of a container: nothing, or a comma. -/
def IsLineTail (tail : Text) : Prop := tail = [] ∨ tail = [CodePoint.ofChar ',']

theorem IsLineTail.lineFeed_not_mem {tail : Text} (h : IsLineTail tail) :
    CodePoint.lineFeed ∉ tail := by
  rcases h with rfl | rfl <;> decide

/-- No line is opened by what it ends with behind a part of a container. -/
theorem IsLineTail.opens_append {tail : Text} (h : IsLineTail tail) (t : Text) {c : CodePoint}
    (hc : c.isOpening = false) : opens (t ++ [c] ++ tail) = false := by
  rcases h with rfl | rfl
  · rw [List.append_nil, opens_concat, hc]
  · exact opens_concat _ _

end Text

/-! ### Layouts -/

namespace Options

open Text

variable {opts : Options} {depth : Int} {afterKey : Bool}

/-- The spaces in front of a value on its line, none of them behind a key. -/
def lineStart (opts : Options) (depth : Int) (afterKey : Bool) : Text :=
  if afterKey then [] else opts.indent depth

theorem exists_lineStart (opts : Options) (hd : 0 ≤ depth) (afterKey : Bool) :
    ∃ n : Nat, opts.lineStart depth afterKey = List.replicate n (CodePoint.ofChar ' ') ∧
      (n : Int) = ((if afterKey then 0 else opts.indentWidth : Nat) : Int) * depth := by
  cases afterKey with
  | true => exact ⟨0, rfl, (Int.zero_mul _).symm⟩
  | false =>
    have hspaces : 0 ≤ opts.spaces depth := Int.mul_nonneg hd (Int.natCast_nonneg _)
    refine ⟨(opts.spaces depth).toNat, rfl, ?_⟩
    rw [Int.toNat_of_nonneg hspaces, spaces, Int.mul_comm]
    rfl

/-- **The first line** of a value, which may be its only one. -/
theorem indented_first (opts : Options) (afterKey : Bool) (hd : 0 ≤ depth) {c : CodePoint}
    (hc : c.startsValue) {t : Text} (hline : CodePoint.lineFeed ∉ c :: t) :
    Indented opts.indentWidth afterKey depth (opts.lineStart depth afterKey ++ c :: t)
      (depth + if opens (c :: t) then 1 else 0) := by
  obtain ⟨n, hstart, hn⟩ := opts.exists_lineStart hd afterKey
  rw [hstart]
  refine indented_line (CodePoint.ne_of_class hc rfl) n t hline ?_ hn
  rw [CodePoint.isClosing_of_startsValue hc, if_neg Bool.false_ne_true]

/-- **The last line** of a container. -/
theorem indented_last (hd : 0 ≤ depth) {c : CodePoint} (hc : c.isClosing) {tail : Text}
    (htail : IsLineTail tail) :
    Indented opts.indentWidth false (depth + 1) (opts.indent depth ++ [c] ++ tail) depth := by
  obtain ⟨n, hstart, hn⟩ := opts.exists_lineStart hd false
  have hindent : opts.indent depth = List.replicate n (CodePoint.ofChar ' ') := hstart
  have hline : CodePoint.lineFeed ∉ c :: tail := by
    rw [List.mem_cons, not_or]
    exact ⟨(CodePoint.ne_of_class hc rfl).symm, htail.lineFeed_not_mem⟩
  have hown : (if c.isClosing then depth + 1 - 1 else depth + 1) = depth := by
    rw [hc, if_pos rfl, Int.add_sub_cancel]
  have hopens : opens (c :: tail) = false :=
    htail.opens_append [] (CodePoint.isOpening_of_class hc rfl rfl)
  have h := indented_line (CodePoint.ne_of_class hc rfl) n tail hline hown hn
  rw [hopens, if_neg Bool.false_ne_true, Int.add_zero] at h
  rw [hindent, List.append_assoc]
  exact h

/-! ### In a line -/

/-- What may stand in front of a value on the same line: nothing, or a key on one line. -/
def IsLineHead (opts : Options) (head : Text) : Prop :=
  head = [] ∨
    ∃ key, CodePoint.lineFeed ∉ opts.stringText key ∧ head = opts.stringText key ++ (": " : Text)

theorem IsLineHead.lineFeed_not_mem {head : Text} (h : opts.IsLineHead head) :
    CodePoint.lineFeed ∉ head := by
  rcases h with rfl | ⟨key, hkey, rfl⟩
  · exact List.not_mem_nil
  · rw [List.mem_append, not_or]
    exact ⟨hkey, by decide⟩

theorem IsLineHead.exists_cons {head : Text} (h : opts.IsLineHead head) {c : CodePoint}
    (hc : c.startsValue) (t : Text) : ∃ d u, head ++ c :: t = d :: u ∧ d.startsValue := by
  rcases h with rfl | ⟨key, -, rfl⟩
  · exact ⟨c, t, rfl, hc⟩
  · exact ⟨CodePoint.ofChar '"', _, rfl, rfl⟩

/-- **A text that may stand in a line** at some depth, whatever is in front of it and behind it: its
own lines are indented, and lead back to that depth. -/
def IndentedAt (opts : Options) (depth : Int) (t : Text) : Prop :=
  ∀ (afterKey : Bool) (head tail : Text), opts.IsLineHead head → IsLineTail tail →
    Indented opts.indentWidth afterKey depth
      (opts.lineStart depth afterKey ++ (head ++ t) ++ tail) depth

/-- A text of one line may stand in a line if it begins and ends as a value does. -/
theorem indentedAt_line (hd : 0 ≤ depth) {t : Text} (hline : CodePoint.lineFeed ∉ t)
    (hfirst : ∃ c u, t = c :: u ∧ c.startsValue) (hlast : ∃ u c, t = u ++ [c] ∧ c.endsValue) :
    opts.IndentedAt depth t := by
  intro afterKey head tail hhead htail
  obtain ⟨u, d, ht, hlast⟩ := hlast
  obtain ⟨c, v, hv, hc⟩ : ∃ c v, head ++ t ++ tail = c :: v ∧ c.startsValue := by
    obtain ⟨c, u, rfl, hc⟩ := hfirst
    obtain ⟨d, v, hv, hd⟩ := hhead.exists_cons hc u
    exact ⟨d, v ++ tail, by rw [hv, List.cons_append], hd⟩
  have hwhole : CodePoint.lineFeed ∉ c :: v := by
    rw [← hv, List.mem_append, List.mem_append, not_or, not_or]
    exact ⟨⟨hhead.lineFeed_not_mem, hline⟩, htail.lineFeed_not_mem⟩
  have hopens : opens (c :: v) = false := by
    rw [← hv, ht, ← List.append_assoc]
    exact htail.opens_append _ (CodePoint.isOpening_of_class hlast rfl rfl)
  have h := opts.indented_first afterKey hd hc hwhole
  rw [hopens, if_neg Bool.false_ne_true, Int.add_zero, ← hv] at h
  rw [List.append_assoc]
  exact h

/-- **A container** may stand in a line if each of its parts may stand in one a level deeper. -/
theorem indentedAt_block (hd : 0 ≤ depth) {first last : Char}
    (hfirst : (CodePoint.ofChar first).isOpening) (hvalue : (CodePoint.ofChar first).startsValue)
    (hlast : (CodePoint.ofChar last).isClosing) {lines : List Text}
    (hlines : ∀ line ∈ lines, ∃ head t, opts.IsLineHead head ∧ opts.IndentedAt (depth + 1) t ∧
      line = opts.indent (depth + 1) ++ (head ++ t)) :
    opts.IndentedAt depth (opts.block depth first last lines) := by
  intro afterKey head tail hhead htail
  have hopening : Indented opts.indentWidth afterKey depth
      (opts.lineStart depth afterKey ++ (head ++ [CodePoint.ofChar first])) (depth + 1) := by
    obtain ⟨c, u, hu, hc⟩ := hhead.exists_cons hvalue []
    have hline : CodePoint.lineFeed ∉ c :: u := by
      rw [← hu, List.mem_append, List.mem_singleton, not_or]
      exact ⟨hhead.lineFeed_not_mem, (CodePoint.ne_of_class hfirst rfl).symm⟩
    have h := opts.indented_first afterKey hd hc hline
    rw [← hu, opens_concat, hfirst, if_pos rfl] at h
    exact h
  have hbody : Indented opts.indentWidth false (depth + 1)
      (ofLines lines ++ (opts.indent depth ++ [CodePoint.ofChar last] ++ tail)) depth := by
    induction lines with
    | nil => exact indented_last hd hlast htail
    | cons line lines ih =>
      rw [List.forall_mem_cons] at hlines
      obtain ⟨⟨head, t, hhead, ht, rfl⟩, hlines⟩ := hlines
      rw [ofLines_cons, List.append_assoc, List.cons_append]
      refine (ht false head _ hhead ?_).append (ih hlines)
      split_ifs
      · exact .inl rfl
      · exact .inr rfl
  have htext := hopening.append hbody
  simpa only [block, List.append_assoc, List.cons_append, List.nil_append] using htext

end Options

/-! ### Values -/

namespace Json

open Text

variable {opts : Options} {depth : Int} {j : Json}

theorem indentedAt_scalar (hj : j.nesting = 0)
    (hs : ∀ s ∈ j.strings, CodePoint.lineFeed ∉ opts.stringText s) (hd : 0 ≤ depth) :
    opts.IndentedAt depth (j.layout opts depth) :=
  Options.indentedAt_line hd (lineFeed_not_mem_layout hj hs depth)
    (j.exists_cons_layout opts depth) (j.exists_concat_layout opts depth)

/-- **A layout** may stand in a line at its depth, if no string in it takes several lines. -/
theorem indentedAt_layout (hs : ∀ s ∈ j.strings, CodePoint.lineFeed ∉ opts.stringText s)
    (hd : 0 ≤ depth) : opts.IndentedAt depth (j.layout opts depth) := by
  induction j using Json.induction generalizing depth with
  | null | bool | number | string => exact indentedAt_scalar rfl hs hd
  | array items ih =>
    rw [layout, itemLines_eq_map]
    refine Options.indentedAt_block hd rfl rfl rfl ?_
    rw [List.forall_mem_map]
    intro j hj
    have hj' := forall_strings_array.mp hs j hj
    exact ⟨[], _, .inl rfl, ih j hj hj' (Int.add_nonneg hd Int.one_nonneg), rfl⟩
  | object members ih =>
    rw [layout, memberLines_eq_map]
    refine Options.indentedAt_block hd rfl rfl rfl ?_
    rw [List.forall_mem_map]
    intro m hm
    obtain ⟨hkey, hm'⟩ := forall_strings_object.mp hs m hm
    refine ⟨opts.stringText m.1 ++ (": " : Text), _, .inr ⟨m.1, hkey, rfl⟩,
      ih m hm hm' (Int.add_nonneg hd Int.one_nonneg), ?_⟩
    simp only [memberLine, List.append_assoc]

/-! ### The last line feed -/

theorem getLast?_layout (opts : Options) (j : Json) (depth : Int) (start : Text) :
    (start ++ j.layout opts depth).getLast? ≠ some CodePoint.lineFeed := by
  obtain ⟨t, c, h, hc⟩ := j.exists_concat_layout opts depth
  rw [h, ← List.append_assoc, List.getLast?_concat, Ne, Option.some.injEq]
  exact CodePoint.ne_of_class hc rfl

theorem lineEnd_eq (j : Json) :
    j.lineEnd false = [CodePoint.lineFeed] ∧ (∃ items, j = .array items) ∨
      j.lineEnd false = [] ∧ ¬ ∃ items, j = .array items := by
  cases j with
  | array items => exact .inl ⟨rfl, items, rfl⟩
  | _ => exact .inr ⟨rfl, by simp⟩

/-- Only arrays end in a line feed, and in one only. -/
theorem withoutFinalLineFeed_placed (opts : Options) (j : Json) (depth : Int) (start : Text) :
    (start ++ (j.layout opts depth ++ j.lineEnd false)).withoutFinalLineFeed
        = start ++ j.layout opts depth ∧
      ((start ++ (j.layout opts depth ++ j.lineEnd false)).getLast? = some CodePoint.lineFeed ↔
        ∃ items, j = .array items) := by
  rw [← List.append_assoc]
  rcases j.lineEnd_eq with ⟨h, harray⟩ | ⟨h, harray⟩
  · rw [h, withoutFinalLineFeed, List.getLast?_concat, if_pos rfl, List.dropLast_concat]
    exact ⟨rfl, iff_of_true rfl harray⟩
  · rw [h, List.append_nil, withoutFinalLineFeed, if_neg (getLast?_layout opts j depth start)]
    exact ⟨rfl, iff_of_false (getLast?_layout opts j depth start) harray⟩

end Json

/-- **The indentation of what is laid out** at some depth, behind a key or not, where no string
takes several lines.  The lines of a container are indented for a level that starts and ends at that
depth, and an array ends the last one.  A scalar has one line, not indented. -/
theorem Options.render_indented {opts : Options} {j : Json} {depth : Int} (hd : 0 ≤ depth)
    {afterKey : Bool} {t : Text} (h : opts.render j.toDatum depth afterKey = .ok t)
    (hs : opts.escapeStrings ∨ ∀ s ∈ j.strings, CodePoint.lineFeed ∉ s) :
    (0 < j.nesting →
      Text.Indented opts.indentWidth afterKey depth t.withoutFinalLineFeed depth ∧
      (t.getLast? = some CodePoint.lineFeed ↔ ∃ items, j = .array items) ∧
      t.withoutFinalLineFeed.getLast? ≠ some CodePoint.lineFeed) ∧
    (j.nesting = 0 → t ≠ [] ∧ t.leadingSpaces = 0 ∧ CodePoint.lineFeed ∉ t) := by
  have hs' : ∀ s ∈ j.strings, CodePoint.lineFeed ∉ opts.stringText s :=
    fun s hmem => lineFeed_not_mem_stringText (hs.imp_right fun h => h s hmem)
  obtain ⟨-, htext⟩ | ⟨e, -, herror⟩ := opts.render_toDatum j depth afterKey
  swap
  · rw [herror] at h
    cases h
  rw [htext, Except.ok.injEq] at h
  constructor
  · intro hj
    rw [if_pos hj, Json.placed] at h
    obtain ⟨hwithout, hlast⟩ :=
      j.withoutFinalLineFeed_placed opts depth (opts.lineStart depth afterKey)
    have hindented := Json.indentedAt_layout hs' hd afterKey [] [] (.inl rfl) (.inl rfl)
    rw [List.nil_append, List.append_nil] at hindented
    subst h
    refine ⟨?_, hlast, ?_⟩
    · exact hwithout ▸ hindented
    · exact hwithout ▸ j.getLast?_layout opts depth _
  · intro hj
    rw [if_neg (by omega)] at h
    subst h
    obtain ⟨c, u, hfirst, hc⟩ := j.exists_cons_layout opts depth
    refine ⟨?_, ?_, Json.lineFeed_not_mem_layout hj hs' depth⟩
    · rw [hfirst]
      exact List.cons_ne_nil c u
    · rw [hfirst]
      exact Text.leadingSpaces_line (CodePoint.ne_of_class hc rfl) 0 u

/-- Brackets in strings and keys are not taken for those of containers. -/
theorem render_indented_brackets_in_strings :
    Options.render ⟨1, false, false⟩ (Json.toDatum
        (.array [.string "[", .object [("\x7d", .string "\x7b")], .array []])) 1 true
      = .ok "[\n  \"[\",\n  \x7b\n   \"\x7d\": \"\x7b\"\n  \x7d,\n  [\n  ]\n ]\n" ∧
    Text.Indented 1 true 1
      "[\n  \"[\",\n  \x7b\n   \"\x7d\": \"\x7b\"\n  \x7d,\n  [\n  ]\n ]" 1 := by
  have h : Options.render ⟨1, false, false⟩ (Json.toDatum
        (.array [.string "[", .object [("\x7d", .string "\x7b")], .array []])) 1 true
      = .ok "[\n  \"[\",\n  \x7b\n   \"\x7d\": \"\x7b\"\n  \x7d,\n  [\n  ]\n ]\n" := by
    decide +kernel
  exact ⟨h, ((Options.render_indented (by decide) h (.inr (by decide))).1 (by decide)).1⟩

end JsonLayout
