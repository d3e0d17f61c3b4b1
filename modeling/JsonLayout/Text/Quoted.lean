import JsonLayout.Text.Printable

/-!
# Quoted texts

A text as a message shows it: between quotes, on one line, with every character visible.

## Main definitions

* `Text.quoteMark`: single quotes, unless the text holds single quotes and no double ones.
* `CodePoint.visible`: a character as it is shown between quotes.
* `Text.quoted`: the whole.
-/

namespace JsonLayout

/-- The numbered escape of a character: two, four or eight hexadecimal digits, as few as do. -/
def CodePoint.numberedEscape (c : CodePoint) : Text :=
  if c.val < 0x100 then ("\\x" : Text) ++ Text.hexadecimal 2 c.val
  else if c.val < 0x10000 then ("\\u" : Text) ++ Text.hexadecimal 4 c.val
  else ("\\U" : Text) ++ Text.hexadecimal 8 c.val

/-- A character as it is shown between quotes of the kind `mark`. -/
def CodePoint.visible (mark c : CodePoint) : Text :=
  if c = '\\' then "\\\\"
  else if c = mark then ['\\', mark]
  else if c = '\n' then "\\n"
  else if c = '\r' then "\\r"
  else if c = '\t' then "\\t"
  else if c.isPrintable then [c]
  else c.numberedEscape

namespace Text

/-- The quotes that a text is shown between. -/
def quoteMark (t : Text) : CodePoint :=
  if t.contains (CodePoint.ofChar '\'') && !t.contains (CodePoint.ofChar '"') then '"' else '\''

/-- A text between quotes, all its characters visible. -/
def quoted (t : Text) : Text :=
  let mark := quoteMark t
  mark :: t.flatMap (CodePoint.visible mark) ++ [mark]

end Text

end JsonLayout
