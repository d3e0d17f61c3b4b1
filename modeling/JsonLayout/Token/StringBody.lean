import JsonLayout.Text.CodePoint

/-!
# String bodies

The body of a JSON string, from behind its opening quote to its closing one.  Each character stands
for itself or is escaped; the numbered escape of a high surrogate and that of a low surrogate right
behind it stand for one code point together.

## Main definitions

* `StringUnit`: a code point, and whether a numbered escape wrote it.
* `StringFault`: what is wrong with a body.
* `StringUnit.push`: joins the second half of a surrogate pair to the first.
* `StringUnit.scan`: the text of a body, and the text after its closing quote.
-/

namespace JsonLayout

/-- What is wrong with the body of a string, with the text from the fault on. -/
inductive StringFault where
  /-- There is no closing quote. -/
  | unterminated
  /-- A character below U+0020 stands unescaped. -/
  | controlCharacter (rest : Text)
  /-- A backslash is followed by no letter of an escape. -/
  | unknownEscape (rest : Text)
  /-- A numbered escape does not have four hexadecimal digits with something after them. -/
  | badNumber (rest : Text)
deriving DecidableEq

/-- A code point of a string, and whether a numbered escape wrote it. -/
structure StringUnit where
  point : CodePoint
  numbered : Bool
deriving DecidableEq

namespace StringUnit

/-- What a letter stands for behind a backslash. -/
def ofLetter? (c : CodePoint) : Option CodePoint :=
  if c = '"' ∨ c = '\\' ∨ c = '/' then some c
  else if c = 'b' then some '\x08'
  else if c = 'f' then some '\x0C'
  else if c = 'n' then some '\n'
  else if c = 'r' then some '\r'
  else if c = 't' then some '\t'
  else none

/-- The code point that four hexadecimal digits number. -/
def ofHex? (a b c d : CodePoint) : Option CodePoint :=
  match a.hexValue?, b.hexValue?, c.hexValue?, d.hexValue? with
  | some w, some x, some y, some z => CodePoint.ofNat? (w * 0x1000 + x * 0x100 + y * 0x10 + z)
  | _, _, _, _ => none

/-- Adds a unit to those before it (latest first).  A low surrogate joins a high one that comes just
before it, if numbered escapes wrote both. -/
def push (u : StringUnit) : List StringUnit → List StringUnit
  | [] => [u]
  | v :: done =>
    if v.numbered ∧ u.numbered ∧ v.point.isHighSurrogate ∧ u.point.isLowSurrogate then
      ⟨v.point.joinSurrogates u.point, false⟩ :: done
    else u :: v :: done

/-- The text that a body stands for up to its closing quote, after the units `done` (latest first),
and the text after the quote. -/
def scan (done : List StringUnit) : Text → Except StringFault (Text × Text)
  | [] => .error .unterminated
  | c :: t =>
    if c = '"' then .ok (done.reverse.map point, t)
    else if c = '\\' then
      match t with
      | [] => .error .unterminated
      | e :: t =>
        if e = 'u' then
          match t with
          | h₁ :: h₂ :: h₃ :: h₄ :: t =>
            match ofHex? h₁ h₂ h₃ h₄ with
            | some n =>
              if t.isEmpty then .error (.badNumber (e :: h₁ :: h₂ :: h₃ :: h₄ :: t))
              else scan (push ⟨n, true⟩ done) t
            | none => .error (.badNumber (e :: h₁ :: h₂ :: h₃ :: h₄ :: t))
          | t => .error (.badNumber (e :: t))
        else
          match ofLetter? e with
          | some p => scan (push ⟨p, false⟩ done) t
          | none => .error (.unknownEscape (c :: e :: t))
    else if c.isControl then .error (.controlCharacter (c :: t))
    else scan (push ⟨c, false⟩ done) t

end StringUnit

end JsonLayout
