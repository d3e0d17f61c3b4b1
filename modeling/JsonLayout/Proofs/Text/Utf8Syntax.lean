import JsonLayout.Proofs.Text.Utf8

/-!
# The syntax of UTF-8

The decoder succeeds on well-formed bytes and on no others, and gives the text that they stand for.
It never sees an over-long form or a surrogate as such: the narrow range of the second byte behind
some first bytes is all that keeps them out, so the number that a sequence makes is followed back to
that range.

## Main definitions

* `Utf8.PointBytes`, `Utf8.Encodes`: the well-formed bytes of a code point and of a text.

## Main results

* `Utf8.encodes_iff`: the well-formed bytes of a text are those of the encoder.
* `Utf8.decode_eq_ok_iff`: what the decoder accepts.
* `readBytes_as_text`: bytes are read as the text that they encode, or not at all.
-/

namespace JsonLayout

namespace Utf8

/-! ### Well-formed bytes -/

/-- A byte that goes on with a character adds six bits. -/
structure IsTail (b : UInt8) (bits : Nat) : Prop where
  toNat : b.toNat = 0x80 + bits
  lt : bits < 0x40

/-- **The well-formed bytes** of a code point.  The first byte says how many there are.  A number
has no more bytes than it needs, and a surrogate has none. -/
inductive PointBytes (c : CodePoint) : Bytes → Prop where
  | one {a : UInt8} (first : a.toNat = c.val) (fits : c.val < 0x80) : PointBytes c [a]
  | two {a b : UInt8} {w x : Nat} (first : a.toNat = 0xC0 + w) (second : IsTail b x)
      (number : c.val = w * 0x40 + x) (needed : 0x80 ≤ c.val) (fits : c.val < 0x800) :
      PointBytes c [a, b]
  | three {a b d : UInt8} {w x y : Nat} (first : a.toNat = 0xE0 + w) (second : IsTail b x)
      (third : IsTail d y) (number : c.val = (w * 0x40 + x) * 0x40 + y)
      (needed : 0x800 ≤ c.val) (fits : c.val < 0x10000) (scalar : c.isSurrogate = false) :
      PointBytes c [a, b, d]
  | four {a b d e : UInt8} {w x y z : Nat} (first : a.toNat = 0xF0 + w) (second : IsTail b x)
      (third : IsTail d y) (fourth : IsTail e z)
      (number : c.val = ((w * 0x40 + x) * 0x40 + y) * 0x40 + z) (needed : 0x10000 ≤ c.val) :
      PointBytes c [a, b, d, e]

/-- **The well-formed bytes** of a text. -/
inductive Encodes : Text → Bytes → Prop where
  | nil : Encodes [] []
  | cons {c : CodePoint} {t : Text} {point rest : Bytes} (hpoint : PointBytes c point)
      (hrest : Encodes t rest) : Encodes (c :: t) (point ++ rest)

variable {a b : UInt8} {c : CodePoint} {s t done : Text} {bytes : Bytes}

theorem eq_ofNat_of_toNat {n : Nat} (h : a.toNat = n) : a = .ofNat n :=
  h ▸ (UInt8.ofNat_toNat).symm

theorem isTail_ofNat {n : Nat} (h : n < 0x40) : IsTail (.ofNat (0x80 + n)) n :=
  ⟨toNat_ofNat (by omega), h⟩

/-- The bits that a byte in the range of the others adds. -/
theorem isTail_mod (hlow : 0x80 ≤ b.toNat) (hhigh : b.toNat ≤ 0xBF) :
    IsTail b (b.toNat % 0x40) :=
  ⟨by omega, by omega⟩

theorem IsTail.eq_ofNat {n : Nat} (h : IsTail b n) : b = .ofNat (0x80 + n) :=
  eq_ofNat_of_toNat h.toNat

theorem isSurrogate_eq_false_of_lt (h : c.val < 0xD800) : c.isSurrogate = false := by
  have hle : ¬ 0xD800 ≤ c.val := by omega
  rw [CodePoint.isSurrogate, decide_eq_false hle, Bool.false_and]

theorem isSurrogate_eq_false_of_le (h : 0xE000 ≤ c.val) : c.isSurrogate = false := by
  have hlt : ¬ c.val < 0xE000 := by omega
  rw [CodePoint.isSurrogate, decide_eq_false hlt, Bool.and_false]

theorem PointBytes.isSurrogate_eq_false (h : PointBytes c bytes) : c.isSurrogate = false := by
  cases h with
  | one first fits => exact isSurrogate_eq_false_of_lt (by omega)
  | two first second number needed fits => exact isSurrogate_eq_false_of_lt (by omega)
  | three first second third number needed fits scalar => exact scalar
  | four first second third fourth number needed => exact isSurrogate_eq_false_of_le (by omega)

/-- The encoder splits a number as well-formed bytes do. -/
theorem PointBytes.eq_encodePoint (h : PointBytes c bytes) : bytes = encodePoint c := by
  cases h with
  | one first fits => rw [encodePoint, if_pos fits, eq_ofNat_of_toNat first]
  | @two a b w x first second number needed fits =>
    have hx := second.lt
    have hw : c.val / 0x40 = w := by omega
    have hlast : c.val % 0x40 = x := by omega
    rw [encodePoint, if_neg (by omega), if_pos fits, hw, hlast, eq_ofNat_of_toNat first,
      second.eq_ofNat]
  | @three a b d w x y first second third number needed fits scalar =>
    have hx := second.lt
    have hy := third.lt
    have hw : c.val / 0x1000 = w := by omega
    have hmiddle : c.val / 0x40 % 0x40 = x := by omega
    have hlast : c.val % 0x40 = y := by omega
    rw [encodePoint, if_neg (by omega), if_neg (by omega), if_pos fits, hw, hmiddle, hlast,
      eq_ofNat_of_toNat first, second.eq_ofNat, third.eq_ofNat]
  | @four a b d e w x y z first second third fourth number needed =>
    have hx := second.lt
    have hy := third.lt
    have hz := fourth.lt
    have hw : c.val / 0x40000 = w := by omega
    have hsecond : c.val / 0x1000 % 0x40 = x := by omega
    have hthird : c.val / 0x40 % 0x40 = y := by omega
    have hlast : c.val % 0x40 = z := by omega
    rw [encodePoint, if_neg (by omega), if_neg (by omega), if_neg (by omega), hw, hsecond, hthird,
      hlast, eq_ofNat_of_toNat first, second.eq_ofNat, third.eq_ofNat, fourth.eq_ofNat]

/-- What the encoder gives is well-formed. -/
theorem pointBytes_encodePoint (h : c.isSurrogate = false) : PointBytes c (encodePoint c) := by
  have hc := c.isLt
  rw [encodePoint]
  split_ifs with hone htwo hthree
  · exact .one (toNat_ofNat (by omega)) hone
  · exact .two (toNat_ofNat (by omega)) (isTail_ofNat (by omega)) (by omega) (by omega) htwo
  · exact .three (toNat_ofNat (by omega)) (isTail_ofNat (by omega)) (isTail_ofNat (by omega))
      (by omega) (by omega) hthree h
  · exact .four (toNat_ofNat (by omega)) (isTail_ofNat (by omega)) (isTail_ofNat (by omega))
      (isTail_ofNat (by omega)) (by omega) (by omega)

/-- **A text** has well-formed bytes unless it holds a surrogate, and the encoder finds them. -/
theorem encodes_iff : Encodes t bytes ↔ (∀ c ∈ t, c.isSurrogate = false) ∧ bytes = t.bytes := by
  constructor
  · intro h
    induction h with
    | nil => exact ⟨List.forall_mem_nil _, rfl⟩
    | cons hpoint hrest ih =>
      refine ⟨List.forall_mem_cons.mpr ⟨hpoint.isSurrogate_eq_false, ih.1⟩, ?_⟩
      rw [hpoint.eq_encodePoint, ih.2, Text.bytes_cons]
  · rintro ⟨hclean, rfl⟩
    induction t with
    | nil => exact .nil
    | cons c t ih =>
      rw [List.forall_mem_cons] at hclean
      rw [Text.bytes_cons]
      exact .cons (pointBytes_encodePoint hclean.1) (ih hclean.2)

/-! ### What is decoded -/

/-- Behind the last but one byte of a character there is the last one. -/
theorem exists_of_decodeFrom_last {n low high : Nat} (hlow : 0x80 ≤ low) (hhigh : high ≤ 0xBF)
    (h : decodeFrom done (some ⟨n, 1, low, high⟩) bytes = .ok s) :
    ∃ (b : UInt8) (x : Nat) (c : CodePoint) (rest : Bytes), bytes = b :: rest ∧ IsTail b x ∧
      c.val = n * 0x40 + x ∧ decodeFrom (c :: done) none rest = .ok s := by
  cases bytes with
  | nil => cases h
  | cons b rest =>
    rw [decodeFrom] at h
    split_ifs at h with hrange hmissing
    · dsimp only at h hrange
      split at h
      · next c hc =>
        obtain ⟨hlt, he⟩ := Option.dite_none_right_eq_some.mp hc
        obtain rfl := Option.some.inj he
        exact ⟨b, _, _, rest, rfl, isTail_mod (by omega) (by omega), rfl, h⟩
      · cases h
    · exact absurd le_rfl hmissing

/-- Behind any other byte of a character there is one in its range, and then any others. -/
theorem exists_of_decodeFrom_more {n k low high : Nat} (hlow : 0x80 ≤ low) (hhigh : high ≤ 0xBF)
    (h : decodeFrom done (some ⟨n, k + 2, low, high⟩) bytes = .ok s) :
    ∃ (b : UInt8) (x : Nat) (rest : Bytes), bytes = b :: rest ∧ IsTail b x ∧ low ≤ 0x80 + x ∧
      0x80 + x ≤ high ∧ decodeFrom done (some ⟨n * 0x40 + x, k + 1, 0x80, 0xBF⟩) rest = .ok s := by
  cases bytes with
  | nil => cases h
  | cons b rest =>
    rw [decodeFrom] at h
    split_ifs at h with hrange hmissing
    · exact absurd hmissing (by simp)
    · dsimp only at h hrange
      have htail := isTail_mod (b := b) (by omega) (by omega)
      have hbyte := htail.toNat
      exact ⟨b, _, rest, rfl, htail, by omega, by omega, h⟩

/-- What a first byte starts, by how many bytes there are. -/
inductive Starts (n : Nat) : Unfinished → Prop where
  | two {w : Nat} (first : n = 0xC0 + w) (needed : 2 ≤ w) (fits : w < 0x20) :
      Starts n ⟨w, 1, 0x80, 0xBF⟩
  | three {w low high : Nat} (first : n = 0xE0 + w) (hlow : 0x80 ≤ low) (hhigh : high ≤ 0xBF)
      (needed : w = 0 → 0xA0 ≤ low) (fits : w < 0x10) (scalar : w = 0xD → high ≤ 0x9F) :
      Starts n ⟨w, 2, low, high⟩
  | four {w low high : Nat} (first : n = 0xF0 + w) (hlow : 0x80 ≤ low) (hhigh : high ≤ 0xBF)
      (needed : w = 0 → 0x90 ≤ low) : Starts n ⟨w, 3, low, high⟩

theorem starts_of_start? {n : Nat} {p : Unfinished} (h : start? n = some p) : Starts n p := by
  rw [start?] at h
  split_ifs at h with htwo hzero hsurrogate hthree hfour hmiddle hlast <;>
    obtain rfl := Option.some.inj h
  · exact .two (by omega) (by omega) (by omega)
  · exact .three hzero (by omega) le_rfl (fun _ => le_rfl) (by omega) (by omega)
  · exact .three hsurrogate le_rfl (by omega) (by omega) (by omega) (fun _ => le_rfl)
  · exact .three (by omega) le_rfl le_rfl (by omega) (by omega) (by omega)
  · exact .four hfour (by omega) le_rfl (fun _ => le_rfl)
  · exact .four (by omega) le_rfl le_rfl (by omega)
  · exact .four hlast le_rfl (by omega) (by omega)

/-- **One character** is decoded from its well-formed bytes. -/
theorem exists_pointBytes_of_decodeFrom {p : Unfinished} (hstart : start? a.toNat = some p)
    (h : decodeFrom done (some p) bytes = .ok s) :
    ∃ (c : CodePoint) (tail rest : Bytes), bytes = tail ++ rest ∧ PointBytes c (a :: tail) ∧
      decodeFrom (c :: done) none rest = .ok s := by
  cases starts_of_start? hstart with
  | two first needed fits =>
    obtain ⟨b, x, c, rest, rfl, hb, hnumber, hrest⟩ := exists_of_decodeFrom_last le_rfl le_rfl h
    have hx := hb.lt
    exact ⟨c, [b], rest, rfl, .two first hb hnumber (by omega) (by omega), hrest⟩
  | @three w low high first hlow hhigh needed fits scalar =>
    obtain ⟨b, x, rest, rfl, hb, hmin, hmax, h⟩ := exists_of_decodeFrom_more hlow hhigh h
    obtain ⟨d, y, c, rest, rfl, hd, hnumber, hrest⟩ := exists_of_decodeFrom_last le_rfl le_rfl h
    have hx := hb.lt
    have hy := hd.lt
    have hscalar : c.isSurrogate = false := by
      by_cases hc : c.val < 0xD800
      · exact isSurrogate_eq_false_of_lt hc
      · exact isSurrogate_eq_false_of_le (by omega)
    exact ⟨c, [b, d], rest, rfl, .three first hb hd hnumber (by omega) (by omega) hscalar, hrest⟩
  | @four w low high first hlow hhigh needed =>
    obtain ⟨b, x, rest, rfl, hb, hmin, hmax, h⟩ := exists_of_decodeFrom_more hlow hhigh h
    obtain ⟨d, y, rest, rfl, hd, -, -, h⟩ := exists_of_decodeFrom_more le_rfl le_rfl h
    obtain ⟨e, z, c, rest, rfl, he, hnumber, hrest⟩ := exists_of_decodeFrom_last le_rfl le_rfl h
    have hx := hb.lt
    exact ⟨c, [b, d, e], rest, rfl, .four first hb hd he hnumber (by omega), hrest⟩

/-- What is decoded between characters is a text that the bytes encode. -/
theorem exists_encodes_of_decodeFrom (h : decodeFrom done none bytes = .ok s) :
    ∃ t, s = done.reverse ++ t ∧ Encodes t bytes := by
  -- a whole character is read at a time, so the induction is on the length
  induction hlen : bytes.length using Nat.strongRecOn generalizing done bytes with
  | ind n ih =>
    cases bytes with
    | nil =>
      cases h
      exact ⟨[], (List.append_nil _).symm, .nil⟩
    | cons a bytes =>
      obtain ⟨c, tail, rest, rfl, hpoint, hrest⟩ : ∃ (c : CodePoint) (tail rest : Bytes),
          bytes = tail ++ rest ∧ PointBytes c (a :: tail) ∧
          decodeFrom (c :: done) none rest = .ok s := by
        rw [decodeFrom] at h
        split_ifs at h with hone
        · exact ⟨_, [], bytes, rfl, .one rfl hone, h⟩
        · split at h
          · next hstart => exact exists_pointBytes_of_decodeFrom hstart h
          · cases h
      have hlt : rest.length < n := by
        rw [← hlen, List.length_cons, List.length_append]
        omega
      obtain ⟨t, rfl, ht⟩ := ih rest.length hlt hrest rfl
      refine ⟨c :: t, ?_, .cons hpoint ht⟩
      rw [List.reverse_cons, List.append_assoc]
      rfl

/-- **The decoder** succeeds on well-formed bytes only, and gives the text that they encode. -/
theorem decode_eq_ok_iff : decode bytes = .ok t ↔ Encodes t bytes := by
  constructor
  · intro h
    obtain ⟨s, rfl, hs⟩ := exists_encodes_of_decodeFrom h
    exact hs
  · intro h
    obtain ⟨hclean, rfl⟩ := encodes_iff.mp h
    exact decode_bytes hclean

/-- Well-formed bytes encode one text. -/
theorem Encodes.unique (hs : Encodes s bytes) (ht : Encodes t bytes) : s = t :=
  Except.ok.inj ((decode_eq_ok_iff.mpr hs).symm.trans (decode_eq_ok_iff.mpr ht))

theorem dropByteOrderMark_eq (bytes : Bytes) :
    dropByteOrderMark bytes = if byteOrderMark <+: bytes then bytes.drop 3 else bytes := by
  unfold dropByteOrderMark
  split
  · next rest => rw [if_pos ⟨rest, rfl⟩]; rfl
  · next hne =>
    rw [if_neg]
    rintro ⟨rest, rfl⟩
    exact hne rest rfl

end Utf8

/-- **Bytes** are read as the text that they encode behind at most one byte order mark.  Bytes that
encode none are refused as such, without a position. -/
theorem readBytes_as_text (bytes : Bytes) :
    let body := if Utf8.byteOrderMark <+: bytes then bytes.drop 3 else bytes
    (∀ t, Utf8.Encodes t body → readBytes bytes = readText t) ∧
    ((¬ ∃ t, Utf8.Encodes t body) → ∃ reason : Utf8.Malformed,
      readBytes bytes = .error (.malformed reason) ∧
      (ReadError.malformed reason).report =
        ⟨"Input is not valid UTF-8 (" ++ reason.message ++ ")", none, none⟩) := by
  intro body
  have hbody : Utf8.dropByteOrderMark bytes = body := Utf8.dropByteOrderMark_eq bytes
  refine ⟨fun t ht => ?_, fun hnone => ?_⟩
  · rw [readBytes, hbody, Utf8.decode_eq_ok_iff.mpr ht]
  · cases hdecode : Utf8.decode body with
    | ok t => exact absurd ⟨t, Utf8.decode_eq_ok_iff.mp hdecode⟩ hnone
    | error reason => exact ⟨reason, by rw [readBytes, hbody, hdecode], rfl⟩

/-- One of two byte order marks is left for the reader of texts, and `C0 80` is over-long. -/
theorem readBytes_as_text_of_marks :
    Utf8.Encodes [byteOrderMark] [0xEF, 0xBB, 0xBF] ∧
    readBytes [0xEF, 0xBB, 0xBF, 0xEF, 0xBB, 0xBF] = readText [byteOrderMark] ∧
    (¬ ∃ t, Utf8.Encodes t [0xC0, 0x80]) ∧
    ∃ reason : Utf8.Malformed, readBytes [0xC0, 0x80] = .error (.malformed reason) := by
  have hmark : Utf8.Encodes [byteOrderMark] [0xEF, 0xBB, 0xBF] :=
    Utf8.decode_eq_ok_iff.mp (by decide)
  have hnone : ¬ ∃ t, Utf8.Encodes t [0xC0, 0x80] := by
    rintro ⟨t, ht⟩
    cases Utf8.decode_eq_ok_iff.mpr ht
  obtain ⟨reason, hreason, -⟩ := (readBytes_as_text [0xC0, 0x80]).2 hnone
  exact ⟨hmark, (readBytes_as_text [0xEF, 0xBB, 0xBF, 0xEF, 0xBB, 0xBF]).1 _ hmark, hnone, reason,
    hreason⟩

end JsonLayout
