import JsonLayout.Reading.State

/-!
# Reading

## Main definitions

* `readFrom`: reads a text on from a state.
* `readAs`: what a reader builds of a text.
* `readText`: the JSON value of a text.
* `readBytes`: the JSON value of bytes in UTF-8, with or without a byte order mark.
-/

namespace JsonLayout

/-! ### Tokens are not empty -/

theorem length_dropWhile_le {α : Type} (p : α → Bool) (l : List α) :
    (l.dropWhile p).length ≤ l.length :=
  (List.dropWhile_sublist p).length_le

theorem StringUnit.length_scan_lt {t rest s : Text} {done : List StringUnit}
    (h : StringUnit.scan done t = .ok (s, rest)) : rest.length < t.length := by
  fun_induction StringUnit.scan done t <;> simp_all <;> omega

namespace NumberLiteral

theorem length_digits_le (t : Text) : (digits t).2.length ≤ t.length :=
  length_dropWhile_le _ _

theorem length_scanWhole_lt {t ds rest : Text} (h : scanWhole t = some (ds, rest)) :
    rest.length < t.length := by
  cases t with
  | nil => simp [scanWhole] at h
  | cons c t =>
    simp only [scanWhole] at h
    split at h
    · cases h; simp
    · split at h
      · next hd =>
        simp only [digits, List.dropWhile_cons, hd, if_true, Option.some.injEq,
          Prod.mk.injEq] at h
        have := length_dropWhile_le CodePoint.isDigit t
        simp only [← h.2, List.length_cons]
        omega
      · cases h

theorem length_scanFraction_le (t : Text) : (scanFraction t).2.length ≤ t.length := by
  unfold scanFraction
  split
  · split
    · next d t _ =>
      have := length_digits_le (d :: t)
      simp only [List.length_cons] at *
      omega
    · simp
  · simp

theorem length_scanSign_le (t : Text) : (scanSign t).2.length ≤ t.length := by
  unfold scanSign
  split
  · simp
  · split
    · simp
    · split <;> simp

theorem length_scanExponent_le (t : Text) : (scanExponent t).2.length ≤ t.length := by
  unfold scanExponent
  split
  · simp
  · next c t =>
    split
    · have := length_digits_le (scanSign t).2
      have := length_scanSign_le t
      dsimp only
      split
      · simp
      · simp only [List.length_cons]
        omega
    · simp

theorem length_scan_lt {t rest : Text} {l : NumberLiteral} (h : scan t = some (l, rest)) :
    rest.length < t.length := by
  unfold scan at h
  split at h
  next negative body hb =>
  have hbody : body.length ≤ t.length := by
    split at hb
    · split at hb <;> simp only [Prod.mk.injEq] at hb <;> simp [← hb.2]
    · simp only [Prod.mk.injEq] at hb
      simp [← hb.2]
  split at h
  · cases h
  · next whole afterWhole hw =>
    have := length_scanWhole_lt hw
    have := length_scanFraction_le afterWhole
    have := length_scanExponent_le (scanFraction afterWhole).2
    simp only [Option.some.injEq, Prod.mk.injEq] at h
    rw [← h.2]
    omega

end NumberLiteral

namespace Token

theorem length_scanWord_lt {t rest : Text} {token : Token}
    (h : scanWord t = some (token, rest)) : rest.length < t.length := by
  obtain ⟨⟨spelling, word⟩, hmem, hw⟩ := List.exists_of_findSome?_eq_some h
  obtain ⟨r, hr, he⟩ := Option.map_eq_some_iff.1 hw
  cases he
  rw [Text.after?_eq_some_iff.1 hr]
  have : 0 < spelling.length := by
    simp only [words, List.mem_cons, List.not_mem_nil, or_false, Prod.mk.injEq] at hmem
    rcases hmem with ⟨rfl, _⟩ | ⟨rfl, _⟩ | ⟨rfl, _⟩ | ⟨rfl, _⟩ | ⟨rfl, _⟩ | ⟨rfl, _⟩ <;>
      decide
  simp only [List.length_append]
  omega

theorem length_scan_lt {t rest : Text} {token : Token} (h : scan t = .ok (token, rest)) :
    rest.length < t.length := by
  cases t with
  | nil => simp [scan] at h
  | cons c t =>
    simp only [scan] at h
    split at h
    · cases h; simp
    · split at h
      · split at h
        · next hs =>
          cases h
          have := StringUnit.length_scan_lt hs
          simp only [List.length_cons]
          omega
        · cases h
      · split at h
        · next hw => cases h; exact length_scanWord_lt hw
        · unfold scanNumber at h
          split at h
          · cases h
          · next hn =>
            split at h
            · cases h; exact NumberLiteral.length_scan_lt hn
            · cases h

end Token

/-! ### From text to value -/

/-- Reads a text on from a state, up to its end or to where it stops being JSON. -/
def readFrom {α : Type} [JsonLike α] (state : Expecting α) (t : Text) : Except Refusal α :=
  let t' := t.skipJsonBlanks
  match h : Token.scan t' with
  | .error noToken => state.finish t' noToken
  | .ok (token, rest) =>
    match state.step t' token with
    | .error refusal => .error refusal
    | .ok state' =>
      have := Token.length_scan_lt h
      have := length_dropWhile_le CodePoint.isJsonBlank t
      readFrom state' rest
termination_by t.length
decreasing_by
  simp only [t', Text.skipJsonBlanks] at *
  omega

/-- The mark that some writers put at the start of a text. -/
def byteOrderMark : CodePoint := ⟨0xFEFF, by decide⟩

/-- The error that a refusal in a text is reported as. -/
def Refusal.toError (t : Text) : Refusal → ReadError
  | .fault f rest => .fault f (.behind (t.take (t.length - rest.length)))
  | .tooManyDigits digits => .tooManyDigits digits
  | .tooDeep => .tooDeep

/-- What a reader builds of a text. -/
def readAs (α : Type) [JsonLike α] (t : Text) : Except ReadError α :=
  if t.head? = some byteOrderMark then .error (.fault .byteOrderMark (.behind []))
  else (readFrom (.value []) t).mapError (Refusal.toError t)

/-- The JSON value of a text. -/
def readText (t : Text) : Except ReadError Json := readAs Json t

/-- The JSON value of bytes in UTF-8.  A byte order mark in front is not a part of the text. -/
def readBytes (bytes : Bytes) : Except ReadError Json :=
  match Utf8.decode (Utf8.dropByteOrderMark bytes) with
  | .ok t => readText t
  | .error reason => .error (.malformed reason)

end JsonLayout
