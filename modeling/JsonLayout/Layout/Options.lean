import JsonLayout.Datum.Error
import JsonLayout.Text.Lines

/-!
# Options of the layout

## Main definitions

* `Options`: how far a level is indented, and how strings and non-finite numbers are written.
* `Options.ofInt?`: options from an indentation that may be negative, which is refused.
* `Options.indent`, `Options.checkIndent`: the spaces in front of a line, and whether they can be
  made.
* `Options.memoryLimit`: how many spaces are assumed to be too many for memory.
-/

namespace JsonLayout

/-- The choices that a layout leaves open. -/
structure Options where
  /-- Spaces per level. -/
  indentWidth : Nat := 2
  /-- Whether quotes, backslashes and control characters are escaped in strings. -/
  escapeStrings : Bool := false
  /-- Whether infinities and the value that is no number are written by name. -/
  allowNan : Bool := false
deriving DecidableEq

/-- An indentation below zero. -/
structure NegativeIndent where
  width : Int
deriving DecidableEq

/-- The refusal in words. -/
def NegativeIndent.message (e : NegativeIndent) : Text :=
  ("indent_width must be >= 0, got " : Text) ++ Decimal.ofInt e.width

namespace Options

/-- Options with a given indentation, which must not be negative. -/
def ofInt? (width : Int) (escapeStrings allowNan : Bool) : Except NegativeIndent Options :=
  if width < 0 then .error ⟨width⟩ else .ok ⟨width.toNat, escapeStrings, allowNan⟩

/-- How many spaces stand in front of a line at some depth: none at one below zero. -/
def spaces (opts : Options) (depth : Int) : Int := depth * opts.indentWidth

/-- The spaces in front of a line at some depth. -/
def indent (opts : Options) (depth : Int) : Text :=
  List.replicate (opts.spaces depth).toNat (CodePoint.ofChar ' ')

/-- One more than the largest machine word; words go as far below zero. -/
def wordLimit : Int := 2 ^ 63

/-- The number of spaces from which on they do not fit in memory.  This is an assumption about the
machine: a smaller one holds fewer of them, and a larger one more.  All that is used of it in proofs
is `memoryLimit_pos` and `memoryLimit_le_wordLimit`. -/
def memoryLimit : Int := 2 ^ 36

theorem memoryLimit_pos : 0 < memoryLimit := by decide

theorem memoryLimit_le_wordLimit : memoryLimit ≤ wordLimit := by decide

/-- Fails if the spaces in front of a line at some depth cannot be made.  A negative number of them
is none, but it has to be a machine word as well. -/
def checkIndent (opts : Options) (depth : Int) : Except DataError Unit :=
  let n := opts.spaces depth
  if n < -wordLimit ∨ wordLimit ≤ n then .error .indentOverflow
  else if memoryLimit ≤ n then .error .outOfMemory
  else .ok ()

end Options

end JsonLayout
