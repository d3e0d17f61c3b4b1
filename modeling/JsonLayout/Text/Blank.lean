import JsonLayout.Text.CodePoint

/-!
# Blank characters

Two kinds of white space meet here.  JSON allows four characters around its tokens; a shell line is
stripped of every character that Unicode counts as white space, together with the four information
separators of ASCII.

## Main definitions

* `CodePoint.isJsonBlank`: space, tab, line feed and carriage return.
* `CodePoint.isBlank`: the wider class.
* `Text.strip`: a text without the blanks at its two ends.
-/

namespace JsonLayout

/-- The white space that may stand around JSON tokens. -/
def CodePoint.isJsonBlank (c : CodePoint) : Bool :=
  c.val == 0x20 || c.val == 0x09 || c.val == 0x0A || c.val == 0x0D

/-- Unicode white space and the information separators U+001C to U+001F. -/
def CodePoint.isBlank (c : CodePoint) : Bool :=
  (0x09 ≤ c.val && c.val ≤ 0x0D) || (0x1C ≤ c.val && c.val ≤ 0x20) || c.val == 0x85 ||
  c.val == 0xA0 || c.val == 0x1680 || (0x2000 ≤ c.val && c.val ≤ 0x200A) || c.val == 0x2028 ||
  c.val == 0x2029 || c.val == 0x202F || c.val == 0x205F || c.val == 0x3000

/-- What JSON takes for white space is blank in the wider sense. -/
theorem CodePoint.isBlank_of_isJsonBlank {c : CodePoint} (h : c.isJsonBlank) : c.isBlank := by
  simp only [isJsonBlank, isBlank, Bool.or_eq_true, Bool.and_eq_true, beq_iff_eq,
    decide_eq_true_eq] at *
  omega

namespace Text

/-- The text without the JSON white space it begins with. -/
def skipJsonBlanks (t : Text) : Text := t.dropWhile CodePoint.isJsonBlank

/-- The text without the blanks it ends with. -/
def stripRight (t : Text) : Text := (t.reverse.dropWhile CodePoint.isBlank).reverse

/-- The text without the blanks at its two ends. -/
def strip (t : Text) : Text := stripRight (t.dropWhile CodePoint.isBlank)

/-- A text of nothing but blanks. -/
def isBlank (t : Text) : Bool := t.all CodePoint.isBlank

end Text

end JsonLayout
