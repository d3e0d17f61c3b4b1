import JsonLayout.Text.CodePoint

/-!
# UTF-8

Texts to bytes and back.  The decoder reads one byte at a time and keeps what the byte after it has
to look like, so it refuses a sequence at the first byte that rules it out; over-long forms,
surrogates and numbers from `0x110000` up are ruled out by the second byte.

## Main definitions

* `Utf8.encodePoint`, `Utf8.encode`: code points to bytes; surrogates have no bytes.
* `Utf8.decode`: bytes to code points, or the reason why there are none.
* `Utf8.encodePath`: as `Utf8.encode`, for paths, where `U+DC80` to `U+DCFF` stand for raw bytes.
-/

namespace JsonLayout

/-- Bytes in order, as a file holds them. -/
abbrev Bytes := List UInt8

namespace Utf8

/-! ### Encoding -/

/-- A run of surrogates that cannot be encoded: its first code point, and where in the text it
starts and ends. -/
structure Unencodable where
  point : CodePoint
  first : Nat
  last : Nat
deriving DecidableEq

/-- The bytes of one code point. -/
def encodePoint (c : CodePoint) : Bytes :=
  let n := c.val
  if n < 0x80 then [.ofNat n]
  else if n < 0x800 then [.ofNat (0xC0 + n / 0x40), .ofNat (0x80 + n % 0x40)]
  else if n < 0x10000 then
    [.ofNat (0xE0 + n / 0x1000), .ofNat (0x80 + n / 0x40 % 0x40), .ofNat (0x80 + n % 0x40)]
  else
    [.ofNat (0xF0 + n / 0x40000), .ofNat (0x80 + n / 0x1000 % 0x40),
      .ofNat (0x80 + n / 0x40 % 0x40), .ofNat (0x80 + n % 0x40)]

/-- The first run of surrogates in a text whose first code point is number `offset`. -/
def unencodable? (offset : Nat) : Text → Option Unencodable
  | [] => none
  | c :: t =>
    if c.isSurrogate then
      some ⟨c, offset, offset + (t.takeWhile CodePoint.isSurrogate).length⟩
    else unencodable? (offset + 1) t

/-- The bytes of a text, which must hold no surrogate. -/
def encode (t : Text) : Except Unencodable Bytes :=
  match unencodable? 0 t with
  | some run => .error run
  | none => .ok (t.flatMap encodePoint)

/-- Whether a code point stands for a raw byte in a path. -/
def isRawByte (c : CodePoint) : Bool := 0xDC80 ≤ c.val && c.val < 0xDD00

/-- The bytes of a path.  A byte that is no UTF-8 is written as the surrogate `0xDC00` above it. -/
def encodePath (offset : Nat) : Text → Except Unencodable Bytes
  | [] => .ok []
  | c :: t =>
    if isRawByte c then (encodePath (offset + 1) t).map (.ofNat (c.val - 0xDC00) :: ·)
    else if c.isSurrogate then
      .error ⟨c, offset, offset + (t.takeWhile CodePoint.isSurrogate).length⟩
    else (encodePath (offset + 1) t).map (encodePoint c ++ ·)

/-! ### Decoding -/

/-- Why some bytes are not UTF-8. -/
inductive Malformed where
  /-- No character starts with this byte. -/
  | startByte
  /-- The bytes before this one do not go on with it. -/
  | continuationByte
  /-- The last character is cut short. -/
  | endOfData
deriving DecidableEq

/-- The reason in words. -/
def Malformed.message : Malformed → Text
  | .startByte => "invalid start byte"
  | .continuationByte => "invalid continuation byte"
  | .endOfData => "unexpected end of data"

/-- A character of which some bytes are still missing: the number that those so far make, how many
are missing, and the range that the next one must lie in. -/
structure Unfinished where
  bits : Nat
  missing : Nat
  low : Nat
  high : Nat

/-- What a first byte above `0x7F` starts. -/
def start? (b : Nat) : Option Unfinished :=
  if 0xC2 ≤ b ∧ b < 0xE0 then some ⟨b - 0xC0, 1, 0x80, 0xBF⟩
  else if b = 0xE0 then some ⟨0, 2, 0xA0, 0xBF⟩
  else if b = 0xED then some ⟨0xD, 2, 0x80, 0x9F⟩
  else if 0xE1 ≤ b ∧ b < 0xF0 then some ⟨b - 0xE0, 2, 0x80, 0xBF⟩
  else if b = 0xF0 then some ⟨0, 3, 0x90, 0xBF⟩
  else if 0xF1 ≤ b ∧ b < 0xF4 then some ⟨b - 0xF0, 3, 0x80, 0xBF⟩
  else if b = 0xF4 then some ⟨4, 3, 0x80, 0x8F⟩
  else none

/-- The text that bytes go on to, after the code points `done` (latest first) and perhaps a part of
a character. -/
def decodeFrom (done : Text) : Option Unfinished → Bytes → Except Malformed Text
  | none, [] => .ok done.reverse
  | some _, [] => .error .endOfData
  | none, b :: bytes =>
    if h : b.toNat < 0x80 then decodeFrom (⟨b.toNat, by omega⟩ :: done) none bytes
    else
      match start? b.toNat with
      | some p => decodeFrom done (some p) bytes
      | none => .error .startByte
  | some p, b :: bytes =>
    if b.toNat < p.low ∨ p.high < b.toNat then .error .continuationByte
    else
      let bits := p.bits * 0x40 + b.toNat % 0x40
      if p.missing ≤ 1 then
        match CodePoint.ofNat? bits with
        | some c => decodeFrom (c :: done) none bytes
        | none => .error .continuationByte
      else decodeFrom done (some ⟨bits, p.missing - 1, 0x80, 0xBF⟩) bytes

/-- The text that some bytes encode. -/
def decode (bytes : Bytes) : Except Malformed Text := decodeFrom [] none bytes

/-- The three bytes that may mark a text as UTF-8 at its start. -/
def byteOrderMark : Bytes := [0xEF, 0xBB, 0xBF]

/-- The bytes after a byte order mark, or all of them if there is none. -/
def dropByteOrderMark : Bytes → Bytes
  | 0xEF :: 0xBB :: 0xBF :: bytes => bytes
  | bytes => bytes

end Utf8

end JsonLayout
