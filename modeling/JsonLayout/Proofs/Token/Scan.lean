import JsonLayout.Proofs.Token.NumberLiteral
import JsonLayout.Proofs.Token.StringBody

/-!
# Scanning tokens

## Main definitions

* `TokenText`: the texts of a token.

## Main results

* `Token.scan_append`, `Token.exists_of_scan`: the scanner takes exactly the texts of tokens.
-/

namespace JsonLayout

/-- The text of a token. -/
inductive TokenText : Text → Token → Prop where
  | openArray : TokenText [CodePoint.ofChar '['] .openArray
  | closeArray : TokenText [CodePoint.ofChar ']'] .closeArray
  | openObject : TokenText [CodePoint.ofChar '{'] .openObject
  | closeObject : TokenText [CodePoint.ofChar '}'] .closeObject
  | comma : TokenText [CodePoint.ofChar ','] .comma
  | colon : TokenText [CodePoint.ofChar ':'] .colon
  | string {t s : Text} (h : StringText t s) : TokenText t (.string s)
  | null : TokenText "null" .null
  | true : TokenText "true" (.bool true)
  | false : TokenText "false" (.bool false)
  | number {t : Text} {n : Number} (h : NumberText t n) : TokenText t (.number n)

/-- A number that is not refused for the count of its digits; other tokens never are. -/
def Token.WithinDigitLimit : Token → Prop
  | .number n => n.WithinDigitLimit
  | _ => True

namespace Token

open Text

variable {rest : Text}

/-! ### Literals -/

/-- The characters with which words begin. -/
private def isWordStart (c : CodePoint) : Bool :=
  words.any fun w => w.1.head? = some c

private theorem scanWord_of_not_isWordStart {c : CodePoint} {t : Text}
    (h : isWordStart c = false) : scanWord (c :: t) = none := by
  rw [isWordStart, List.any_eq_false] at h
  rw [scanWord, List.findSome?_eq_none_iff]
  intro w hw
  rw [Option.map_eq_none_iff]
  have hhead := h w hw
  obtain ⟨spelling, token⟩ := w
  cases spelling with
  | nil => exact absurd hw (by simp [words, ofString])
  | cons a start =>
    have hne : a ≠ c := by simpa using hhead
    exact if_neg hne

private theorem not_isWordStart_of_isDigit {c : CodePoint} (h : c.isDigit) :
    isWordStart c = false := by
  have hne : ∀ d : CodePoint, d.isDigit = false → d ≠ c := by
    intro d hd
    exact (CodePoint.ne_of_class h hd).symm
  rw [isWordStart, List.any_eq_false]
  intro w hw
  simp only [words, List.mem_cons, List.not_mem_nil, or_false] at hw
  have hn := hne (CodePoint.ofChar 'n') rfl
  have ht := hne (CodePoint.ofChar 't') rfl
  have hf := hne (CodePoint.ofChar 'f') rfl
  have hN := hne (CodePoint.ofChar 'N') rfl
  have hI := hne (CodePoint.ofChar 'I') rfl
  have hm := hne (CodePoint.ofChar '-') rfl
  rcases hw with rfl | rfl | rfl | rfl | rfl | rfl <;> simpa [ofString]

private theorem scanWord_minus {c : CodePoint} {t : Text} (h : c.isDigit) :
    scanWord (CodePoint.ofChar '-' :: c :: t) = none := by
  have hc : CodePoint.ofChar 'I' ≠ c := (CodePoint.ne_of_class h rfl).symm
  rw [scanWord, List.findSome?_eq_none_iff]
  intro w hw
  rw [Option.map_eq_none_iff]
  simp only [words, List.mem_cons, List.not_mem_nil, or_false] at hw
  rcases hw with rfl | rfl | rfl | rfl | rfl | rfl <;> try rfl
  exact if_neg hc

/-- A literal is not taken for a word, nor its first character for a mark or a quote. -/
private theorem scan_of_literal {t : Text} {l : NumberLiteral} (h : LiteralText t l) :
    scan (t ++ rest) = scanNumber (t ++ rest) := by
  obtain @⟨negative, whole, f, e, fraction, exponent, hw, -, -⟩ := h
  obtain ⟨c, w, rfl⟩ := List.exists_cons_of_ne_nil hw.1.1
  have hc := hw.1.2 c (List.mem_cons_self ..)
  cases negative with
  | true =>
    change scan (CodePoint.ofChar '-' :: c :: (w ++ f ++ e ++ rest)) = _
    rw [scan, show ofMark? (CodePoint.ofChar '-') = none from rfl]
    simp only [show CodePoint.ofChar '-' ≠ CodePoint.ofChar '"' by decide, if_false,
      scanWord_minus hc]
    rfl
  | false =>
    change scan (c :: (w ++ f ++ e ++ rest)) = _
    have hne : ∀ d : CodePoint, d.isDigit = false → c ≠ d := by
      intro d hd
      exact CodePoint.ne_of_class hc hd
    have hmark : ofMark? c = none := by
      simp only [ofMark?, hne (CodePoint.ofChar '[') rfl, hne (CodePoint.ofChar ']') rfl,
        hne (CodePoint.ofChar '{') rfl, hne (CodePoint.ofChar '}') rfl,
        hne (CodePoint.ofChar ',') rfl, hne (CodePoint.ofChar ':') rfl, if_false]
    rw [scan, hmark]
    simp only [hne (CodePoint.ofChar '"') rfl, if_false,
      scanWord_of_not_isWordStart (not_isWordStart_of_isDigit hc)]
    rfl

/-! ### Taking what the grammar allows -/

/-- **The scanner takes the text of every token**, given that the text behind a number does not go
on with it. -/
theorem scan_append {t : Text} {token : Token} (h : TokenText t token)
    (hn : token.WithinDigitLimit)
    (hr : (∃ n, token = .number n) → BeginsOutside CodePoint.isNumberPart rest) :
    scan (t ++ rest) = .ok (token, rest) := by
  cases h with
  | openArray | closeArray | openObject | closeObject | comma | colon => rfl
  | null | true | false => rfl
  | string h =>
    obtain ⟨body, ht, hscan⟩ := h.scan rest
    rw [ht, scan, show ofMark? (CodePoint.ofChar '"') = none from rfl]
    simp only [if_true, hscan]
  | number h =>
    cases h with
    | nan | infinity | minusInfinity => rfl
    | literal h =>
      rw [scan_of_literal h, scanNumber, NumberLiteral.scan_append h (hr ⟨_, rfl⟩)]
      simp only [NumberLiteral.value_eq_ok h hn]

/-! ### What is taken -/

theorem tokenText_of_ofMark? {c : CodePoint} {token : Token} (h : ofMark? c = some token) :
    TokenText [c] token ∧ token.WithinDigitLimit := by
  unfold ofMark? at h
  split_ifs at h with h₁ h₂ h₃ h₄ h₅ h₆ <;> cases h
  · exact ⟨h₁ ▸ .openArray, trivial⟩
  · exact ⟨h₂ ▸ .closeArray, trivial⟩
  · exact ⟨h₃ ▸ .openObject, trivial⟩
  · exact ⟨h₄ ▸ .closeObject, trivial⟩
  · exact ⟨h₅ ▸ .comma, trivial⟩
  · exact ⟨h₆ ▸ .colon, trivial⟩

theorem tokenText_of_scanWord {t : Text} {token : Token} (h : scanWord t = some (token, rest)) :
    ∃ q, TokenText q token ∧ t = q ++ rest ∧ token.WithinDigitLimit := by
  obtain ⟨⟨spelling, word⟩, hmem, hw⟩ := List.exists_of_findSome?_eq_some h
  obtain ⟨r, hr, he⟩ := Option.map_eq_some_iff.mp hw
  cases he
  refine ⟨spelling, ?_, after?_eq_some_iff.mp hr, ?_⟩ <;>
    simp only [words, List.mem_cons, List.not_mem_nil, or_false, Prod.mk.injEq] at hmem <;>
    rcases hmem with ⟨rfl, rfl⟩ | ⟨rfl, rfl⟩ | ⟨rfl, rfl⟩ | ⟨rfl, rfl⟩ | ⟨rfl, rfl⟩ | ⟨rfl, rfl⟩
  exacts [.null, .true, .false, .number .nan, .number .infinity, .number .minusInfinity, trivial,
    trivial, trivial, trivial, trivial, trivial]

theorem tokenText_of_scanNumber {t : Text} {token : Token}
    (h : scanNumber t = .ok (token, rest)) :
    ∃ q, TokenText q token ∧ t = q ++ rest ∧ token.WithinDigitLimit := by
  unfold scanNumber at h
  split at h
  · cases h
  · next l r hl =>
    obtain ⟨q, hq, rfl⟩ := NumberLiteral.exists_of_scan hl
    split at h
    · next n hv =>
      cases h
      obtain ⟨rfl, hn⟩ := NumberLiteral.number_of_value hq hv
      exact ⟨q, .number (.literal hq), rfl, hn⟩
    · cases h

/-- **What the scanner takes is the text of its token.** -/
theorem exists_of_scan {t : Text} {token : Token} (h : scan t = .ok (token, rest)) :
    ∃ q, TokenText q token ∧ t = q ++ rest ∧ token.WithinDigitLimit := by
  cases t with
  | nil => cases h
  | cons c t =>
    rw [scan] at h
    split at h
    · next mark hm =>
      cases h
      obtain ⟨hq, hn⟩ := tokenText_of_ofMark? hm
      exact ⟨[c], hq, rfl, hn⟩
    · split_ifs at h with hc
      · split at h
        · next s r hs =>
          cases h
          obtain ⟨q, hq, ht⟩ := StringText.of_scan hs
          exact ⟨q, .string hq, by rw [hc, ht], trivial⟩
        · cases h
      · split at h
        · next word r hw =>
          cases h
          exact tokenText_of_scanWord hw
        · exact tokenText_of_scanNumber h

end Token

end JsonLayout
