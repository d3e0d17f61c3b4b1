/-!
# Code points and texts

A text is a list of Unicode code points.  Surrogates are code points too, and an escape in a JSON
string can leave one standing alone, so `Char`, which excludes them, is too small for the job.

## Main definitions

* `CodePoint`: a number below `0x110000`.
* `Text`: a list of code points, with a coercion from `String` for literals.
* `CodePoint.joinSurrogates`: the code point that a high and a low surrogate stand for.
* `Text.after?`: what follows a given beginning.
-/

namespace JsonLayout

-- Powers are those of the core library, also in modules that know of others.
attribute [default_instance 20000, instance (20000)] instPowNat

/-- A Unicode code point.  Surrogates are included, so a text can hold one on its own. -/
structure CodePoint where
  val : Nat
  isLt : val < 0x110000
deriving DecidableEq

/-- A text is the list of its code points. -/
abbrev Text := List CodePoint

namespace CodePoint

theorem toNat_lt (c : Char) : c.toNat < 0x110000 := by
  have h := c.valid
  have e : c.toNat = c.val.toNat := rfl
  simp only [UInt32.isValidChar, Nat.isValidChar] at h
  omega

/-- Every character is a code point. -/
def ofChar (c : Char) : CodePoint := ⟨c.toNat, toNat_lt c⟩

instance : Coe Char CodePoint := ⟨ofChar⟩

instance : Inhabited CodePoint := ⟨⟨0, by decide⟩⟩

/-- The code point with a given number, if there is one. -/
def ofNat? (n : Nat) : Option CodePoint :=
  if h : n < 0x110000 then some ⟨n, h⟩ else none

/-! ### Surrogates -/

/-- The first half of a surrogate pair. -/
def isHighSurrogate (c : CodePoint) : Bool := 0xD800 ≤ c.val && c.val < 0xDC00

/-- The second half of a surrogate pair. -/
def isLowSurrogate (c : CodePoint) : Bool := 0xDC00 ≤ c.val && c.val < 0xE000

/-- A code point that no character has. -/
def isSurrogate (c : CodePoint) : Bool := 0xD800 ≤ c.val && c.val < 0xE000

/-- The code point above `0xFFFF` that a high and a low surrogate stand for together. -/
def joinSurrogates (high low : CodePoint) : CodePoint :=
  ⟨0x10000 + high.val % 0x400 * 0x400 + low.val % 0x400, by omega⟩

/-! ### ASCII classes -/

/-- Below the space: the characters that a JSON string has to escape. -/
def isControl (c : CodePoint) : Bool := c.val < 0x20

/-- A decimal digit of ASCII, the only digits of a JSON number. -/
def isDigit (c : CodePoint) : Bool := 0x30 ≤ c.val && c.val ≤ 0x39

/-- What an ASCII digit counts. -/
def digitValue (c : CodePoint) : Nat := c.val - 0x30

/-- What a hexadecimal digit counts, in either case. -/
def hexValue? (c : CodePoint) : Option Nat :=
  if 0x30 ≤ c.val && c.val ≤ 0x39 then some (c.val - 0x30)
  else if 0x61 ≤ c.val && c.val ≤ 0x66 then some (c.val - 0x57)
  else if 0x41 ≤ c.val && c.val ≤ 0x46 then some (c.val - 0x37)
  else none

/-- The hexadecimal digit, in lower case, of the last four bits of a number. -/
def hexDigit (n : Nat) : CodePoint :=
  if n % 16 < 10 then ⟨0x30 + n % 16, by omega⟩ else ⟨0x57 + n % 16, by omega⟩

end CodePoint

namespace Text

/-- The text of a string. -/
def ofString (s : String) : Text := s.toList.map CodePoint.ofChar

instance : Coe String Text := ⟨ofString⟩

/-- What follows `start` in a text that begins with it. -/
def after? : (start t : Text) → Option Text
  | [], t => some t
  | a :: start, b :: t => if a = b then after? start t else none
  | _ :: _, [] => none

theorem after?_eq_some_iff {start t rest : Text} :
    after? start t = some rest ↔ t = start ++ rest := by
  induction start generalizing t with
  | nil => simp [after?]
  | cons a start ih =>
    cases t with
    | nil => simp [after?]
    | cons b t =>
      by_cases h : a = b
      · simp [after?, h, ih]
      · simp [after?, h, Ne.symm h]

/-- Whether a text begins with `start`. -/
def startsWith (t start : Text) : Bool := (after? start t).isSome

/-- The last `width` hexadecimal digits of a number. -/
def hexadecimal (width n : Nat) : Text :=
  ((List.range width).map fun i => CodePoint.hexDigit (n / 16 ^ i)).reverse

/-- The texts one after another, with `separator` between neighbours. -/
def join (separator : Text) (ts : List Text) : Text := (ts.intersperse separator).flatten

end Text

end JsonLayout
