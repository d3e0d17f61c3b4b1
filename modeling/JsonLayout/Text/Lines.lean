import JsonLayout.Text.CodePoint

/-!
# Lines

Input arrives in lines that a line feed ends; a listing shows the first line of a text in the wider
sense of Unicode, where eleven characters break a line.

## Main definitions

* `Text.lines`: the lines of an input, each without its line feed.
* `Text.firstLine`: a text up to its first line break of any kind.
* `Text.withFinalLineFeed`: a text that ends in a line feed, with one added if it is missing.
* `Text.universalLineFeeds`: an input whose line ends are all written as line feeds.
-/

namespace JsonLayout

/-- The line feed, the only line end that counts in an input. -/
def CodePoint.lineFeed : CodePoint := '\n'

/-- The characters at which a line ends in the wider sense. -/
def CodePoint.isLineBreak (c : CodePoint) : Bool :=
  (0x0A ≤ c.val && c.val ≤ 0x0D) || (0x1C ≤ c.val && c.val ≤ 0x1E) || c.val == 0x85 ||
  c.val == 0x2028 || c.val == 0x2029

namespace Text

/-- A text cut at every line feed; the last line may be empty. -/
def splitLines : Text → List Text
  | [] => [[]]
  | c :: t =>
    if c = '\n' then [] :: splitLines t
    else
      match splitLines t with
      | [] => [[c]]
      | line :: rest => (c :: line) :: rest

/-- The lines of an input in reading order, each without its line feed.  A last line needs no line
feed, but it has to hold something. -/
def lines (t : Text) : List Text :=
  let ls := splitLines t
  if ls.getLast? = some [] then ls.dropLast else ls

/-- A text up to its first line break. -/
def firstLine (t : Text) : Text := t.takeWhile fun c => !c.isLineBreak

/-- The text, ending in a line feed: one is added unless it is there already. -/
def withFinalLineFeed (t : Text) : Text :=
  if t.getLast? = some CodePoint.lineFeed then t else t ++ [CodePoint.lineFeed]

/-- A line as it was read, without the line feeds it ends with. -/
def dropFinalLineFeeds (t : Text) : Text :=
  (t.reverse.dropWhile (· = CodePoint.lineFeed)).reverse

/-- Carriage returns become line feeds, and a line feed right after one is dropped: it belongs to
the same line end.  `returned` says that a carriage return came just before. -/
def unifyLineEnds (returned : Bool) : Text → Text
  | [] => []
  | c :: t =>
    if c = '\r' then CodePoint.lineFeed :: unifyLineEnds true t
    else if c = '\n' then
      if returned then unifyLineEnds false t else CodePoint.lineFeed :: unifyLineEnds false t
    else c :: unifyLineEnds false t

/-- An input whose line ends, of whatever kind, are all written as line feeds. -/
def universalLineFeeds (t : Text) : Text := unifyLineEnds false t

end Text

end JsonLayout
