import JsonLayout.Proofs.Reading.Complete
import JsonLayout.Proofs.Text.LineEnds

/-!
# Reading does not depend on line ends

A carriage return may stand in the white space around tokens, where it counts as little as a line
feed, and nowhere else: in a string it is refused as a line feed is.  So the same value is read from
a text and from the text with its line ends unified, or the same fault is found in both, at places
that correspond.  Only the line and the column of the fault may differ.

## Main definitions

* `StringFault.map`, `NoToken.map`, `Refusal.map`: the same fault, with another text behind it.
* `ReadError.SameButForPlace`: errors that differ in a line and a column at most.

## Main results

* `Token.scan_universalLineFeeds`: one token.
* `readFrom_universalLineFeeds`: a whole text, from any state.
* `readText_universalLineFeeds`: the value of a text, or its error.
-/

namespace JsonLayout

open Text

/-! ### Faults at corresponding places -/

/-- The same fault, with another text from it on. -/
def StringFault.map (f : Text → Text) : StringFault → StringFault
  | .unterminated => .unterminated
  | .controlCharacter rest => .controlCharacter (f rest)
  | .unknownEscape rest => .unknownEscape (f rest)
  | .badNumber rest => .badNumber (f rest)

/-- The same reason, with another text behind it. -/
def NoToken.map (f : Text → Text) : NoToken → NoToken
  | .missing => .missing
  | .string fault => .string (fault.map f)
  | .integer digits => .integer digits

/-- The same refusal, with another text from it on. -/
def Refusal.map (f : Text → Text) : Refusal → Refusal
  | .fault cause rest => .fault cause (f rest)
  | .tooManyDigits digits => .tooManyDigits digits
  | .tooDeep => .tooDeep

/-- What a scanner gives, with another text behind what it took. -/
def mapRest {ε α : Type} (onError : ε → ε) (f : Text → Text) :
    Except ε (α × Text) → Except ε (α × Text)
  | .ok (a, rest) => .ok (a, f rest)
  | .error e => .error (onError e)

/-! ### Strings -/

namespace StringUnit

variable {done : List StringUnit} {t : Text}

/-- Behind a backslash and a `u` that no number follows, the scanner stops. -/
theorem scan_badNumber (h : ∀ a b c d u p, t = a :: b :: c :: d :: u → ofHex? a b c d = some p →
    u = []) :
    scan done (CodePoint.ofChar '\\' :: CodePoint.ofChar 'u' :: t)
      = .error (.badNumber (CodePoint.ofChar 'u' :: t)) := by
  rw [scan.eq_def]
  simp only [show CodePoint.ofChar '\\' ≠ CodePoint.ofChar '"' by decide, if_false, if_true]
  split
  · next a b c d u =>
    cases hp : ofHex? a b c d with
    | none => rfl
    | some p =>
      obtain rfl := h a b c d u p rfl hp
      rfl
  · rfl

theorem ne_lineFeed_of_hexValue? {c : CodePoint} {n : Nat} (h : c.hexValue? = some n) :
    c ≠ CodePoint.ofChar '\r' ∧ c ≠ CodePoint.lineFeed := by
  constructor <;> rintro rfl <;> cases h

/-- Four digits are there whether line ends are unified or not. -/
theorem exists_of_hex_universalLineFeeds {a b c d p : CodePoint} {u : Text}
    (h : universalLineFeeds t = a :: b :: c :: d :: u) (hp : ofHex? a b c d = some p) :
    ∃ v, t = a :: b :: c :: d :: v ∧ universalLineFeeds v = u := by
  obtain ⟨w, x, y, z, ha, hb, hc, hd, -⟩ := ofHex?_eq_some_iff.mp hp
  obtain ⟨t₁, rfl, h₁⟩ := exists_cons_of_universalLineFeeds h (ne_lineFeed_of_hexValue? ha).2
  obtain ⟨t₂, rfl, h₂⟩ := exists_cons_of_universalLineFeeds h₁ (ne_lineFeed_of_hexValue? hb).2
  obtain ⟨t₃, rfl, h₃⟩ := exists_cons_of_universalLineFeeds h₂ (ne_lineFeed_of_hexValue? hc).2
  obtain ⟨t₄, rfl, h₄⟩ := exists_cons_of_universalLineFeeds h₃ (ne_lineFeed_of_hexValue? hd).2
  exact ⟨t₄, rfl, h₄⟩

theorem universalLineFeeds_hex {a b c d p : CodePoint} (hp : ofHex? a b c d = some p) (t : Text) :
    universalLineFeeds (a :: b :: c :: d :: t) = a :: b :: c :: d :: universalLineFeeds t := by
  obtain ⟨w, x, y, z, ha, hb, hc, hd, -⟩ := ofHex?_eq_some_iff.mp hp
  rw [universalLineFeeds_cons (ne_lineFeed_of_hexValue? ha).1,
    universalLineFeeds_cons (ne_lineFeed_of_hexValue? hb).1,
    universalLineFeeds_cons (ne_lineFeed_of_hexValue? hc).1,
    universalLineFeeds_cons (ne_lineFeed_of_hexValue? hd).1]

theorem scan_unknownEscape {e : CodePoint} (hu : e ≠ CodePoint.ofChar 'u')
    (hletter : ofLetter? e = none) :
    scan done (CodePoint.ofChar '\\' :: e :: t)
      = .error (.unknownEscape (CodePoint.ofChar '\\' :: e :: t)) := by
  rw [scan.eq_def]
  simp only [show CodePoint.ofChar '\\' ≠ CodePoint.ofChar '"' by decide, hu, hletter, if_false,
    if_true]

theorem scan_controlCharacter {c : CodePoint} (control : c.isControl) :
    scan done (c :: t) = .error (.controlCharacter (c :: t)) := by
  have hquote : c ≠ CodePoint.ofChar '"' := CodePoint.ne_of_class control rfl
  have hbackslash : c ≠ CodePoint.ofChar '\\' := CodePoint.ne_of_class control rfl
  rw [scan.eq_def]
  simp only [hquote, hbackslash, control, if_false, if_true]

theorem universalLineFeeds_escape (t : Text) :
    universalLineFeeds (CodePoint.ofChar '\\' :: t)
      = CodePoint.ofChar '\\' :: universalLineFeeds t :=
  universalLineFeeds_cons (by decide) t

theorem universalLineFeeds_number (t : Text) :
    universalLineFeeds (CodePoint.ofChar 'u' :: t) = CodePoint.ofChar 'u' :: universalLineFeeds t :=
  universalLineFeeds_cons (by decide) t

/-- A numbered escape fails alike: digits that are there are there on both sides. -/
theorem scan_badNumber_universalLineFeeds (h : ∀ a b c d u p, t = a :: b :: c :: d :: u →
    ofHex? a b c d = some p → u = []) :
    scan done (universalLineFeeds (CodePoint.ofChar '\\' :: CodePoint.ofChar 'u' :: t))
      = .error ((StringFault.badNumber (CodePoint.ofChar 'u' :: t)).map universalLineFeeds) := by
  rw [universalLineFeeds_escape, universalLineFeeds_number, scan_badNumber, StringFault.map,
    universalLineFeeds_number]
  intro a b c d u p ht hp
  obtain ⟨v, rfl, rfl⟩ := exists_of_hex_universalLineFeeds ht hp
  rw [h a b c d v p rfl hp]
  rfl

/-- **The body of a string** has the same text, or the same fault. -/
theorem scan_universalLineFeeds (done : List StringUnit) (t : Text) :
    scan done (universalLineFeeds t)
      = mapRest (StringFault.map universalLineFeeds) universalLineFeeds (scan done t) := by
  fun_induction scan done t with
  | case1 => rfl
  | case2 done t =>
    rw [universalLineFeeds_cons (by decide), scan_quote]
    rfl
  | case3 => rfl
  | case4 done a b c d t p hp hempty =>
    refine scan_badNumber_universalLineFeeds ?_
    rintro _ _ _ _ u q ⟨⟩ -
    exact List.isEmpty_iff.mp hempty
  | case5 done a b c d t p hp hempty _ ih =>
    have ht : universalLineFeeds t ≠ [] := by
      rw [Ne, universalLineFeeds_eq_nil_iff, ← List.isEmpty_iff]
      exact hempty
    rw [universalLineFeeds_escape, universalLineFeeds_number, universalLineFeeds_hex hp,
      scan_numbered done _ hp ht]
    exact ih
  | case6 done a b c d t hp =>
    refine scan_badNumber_universalLineFeeds ?_
    rintro _ _ _ _ u q ⟨⟩ hq
    rw [hp] at hq
    cases hq
  | case7 done t hshort =>
    exact scan_badNumber_universalLineFeeds fun a b c d u p ht _ => (hshort a b c d u ht).elim
  | case8 done e t _ p hletter _ ih =>
    have hreturn : e ≠ CodePoint.ofChar '\r' := by
      rintro rfl
      cases hletter
    rw [universalLineFeeds_escape, universalLineFeeds_cons hreturn,
      scan_letter done _ (ofLetter?_eq_some_iff.mp hletter)]
    exact ih
  | case9 done e t hne hletter =>
    obtain ⟨d, u, hd, hcases⟩ := exists_universalLineFeeds_cons e t
    rw [universalLineFeeds_escape, hd, scan_unknownEscape]
    · rw [mapRest, StringFault.map, universalLineFeeds_escape, hd]
    · rcases hcases with rfl | ⟨-, rfl⟩
      · exact hne
      · decide
    · rcases hcases with rfl | ⟨-, rfl⟩
      · exact hletter
      · rfl
  | case10 done c t _ _ control =>
    obtain ⟨d, u, hd, hcases⟩ := exists_universalLineFeeds_cons c t
    rw [hd, scan_controlCharacter]
    · rw [mapRest, StringFault.map, hd]
    · rcases hcases with rfl | ⟨-, rfl⟩
      · exact control
      · rfl
  | case11 done c t quote backslash control ih =>
    have hreturn : c ≠ CodePoint.ofChar '\r' := by
      rintro rfl
      exact control rfl
    have hc : 0x20 ≤ c.val := by simpa [CodePoint.isControl] using control
    rw [universalLineFeeds_cons hreturn, scan_plain done _ hc quote backslash]
    exact ih

end StringUnit

/-! ### Numbers -/

namespace NumberLiteral

variable {t : Text}

theorem digits_universalLineFeeds (t : Text) :
    digits (universalLineFeeds t) = ((digits t).1, universalLineFeeds (digits t).2) := by
  rw [digits, takeWhile_universalLineFeeds rfl rfl, dropWhile_universalLineFeeds rfl rfl]
  rfl

theorem scanWhole_universalLineFeeds (t : Text) :
    scanWhole (universalLineFeeds t)
      = (scanWhole t).map fun p => (p.1, universalLineFeeds p.2) := by
  cases t with
  | nil => rfl
  | cons c t =>
    by_cases hc : c = CodePoint.ofChar '\r'
    · subst hc
      rfl
    · rw [universalLineFeeds_cons hc, scanWhole, scanWhole]
      split_ifs
      · rfl
      · rw [← universalLineFeeds_cons hc, digits_universalLineFeeds]
        rfl
      · rfl

theorem scanFraction_eq_none (h : ∀ d u, t = CodePoint.ofChar '.' :: d :: u → d.isDigit = false) :
    scanFraction t = (none, t) := by
  unfold scanFraction
  split
  · next c d u =>
    refine if_neg ?_
    rintro ⟨rfl, hd⟩
    rw [h d u rfl] at hd
    cases hd
  · rfl

theorem scanFraction_universalLineFeeds (t : Text) :
    scanFraction (universalLineFeeds t)
      = ((scanFraction t).1, universalLineFeeds (scanFraction t).2) := by
  by_cases h : ∃ d u, t = CodePoint.ofChar '.' :: d :: u ∧ d.isDigit
  · obtain ⟨d, u, rfl, hd⟩ := h
    have hreturn : d ≠ CodePoint.ofChar '\r' := CodePoint.ne_of_class hd rfl
    rw [universalLineFeeds_cons (by decide), universalLineFeeds_cons hreturn, scanFraction,
      scanFraction, if_pos ⟨rfl, hd⟩, if_pos ⟨rfl, hd⟩, ← universalLineFeeds_cons hreturn,
      digits_universalLineFeeds]
  · have hnone : ∀ d u, t = CodePoint.ofChar '.' :: d :: u → d.isDigit = false := by
      intro d u ht
      rw [Bool.eq_false_iff]
      exact fun hd => h ⟨d, u, ht, hd⟩
    rw [scanFraction_eq_none hnone, scanFraction_eq_none]
    intro d u ht
    obtain ⟨v, rfl, hv⟩ := exists_cons_of_universalLineFeeds ht (by decide)
    by_cases hd : d = CodePoint.lineFeed
    · subst hd
      rfl
    · obtain ⟨w, rfl, -⟩ := exists_cons_of_universalLineFeeds hv hd
      exact hnone d w rfl

theorem scanSign_universalLineFeeds (t : Text) :
    scanSign (universalLineFeeds t) = ((scanSign t).1, universalLineFeeds (scanSign t).2) := by
  cases t with
  | nil => rfl
  | cons c t =>
    by_cases hc : c = CodePoint.ofChar '\r'
    · subst hc
      rfl
    · rw [universalLineFeeds_cons hc, scanSign, scanSign]
      split_ifs
      · rfl
      · rfl
      · rw [← universalLineFeeds_cons hc]

theorem scanExponent_universalLineFeeds (t : Text) :
    scanExponent (universalLineFeeds t)
      = ((scanExponent t).1, universalLineFeeds (scanExponent t).2) := by
  cases t with
  | nil => rfl
  | cons c t =>
    by_cases hc : c = CodePoint.ofChar '\r'
    · subst hc
      rfl
    · rw [universalLineFeeds_cons hc, scanExponent, scanExponent]
      split_ifs
      · simp only [scanSign_universalLineFeeds, digits_universalLineFeeds]
        split_ifs
        · rw [← universalLineFeeds_cons hc]
        · rfl
      · rw [← universalLineFeeds_cons hc]

theorem scanUnsigned_universalLineFeeds (negative : Bool) (t : Text) :
    scanUnsigned negative (universalLineFeeds t)
      = (scanUnsigned negative t).map fun p => (p.1, universalLineFeeds p.2) := by
  rw [scanUnsigned, scanUnsigned, scanWhole_universalLineFeeds]
  cases scanWhole t with
  | none => rfl
  | some p =>
    simp only [Option.map_some, scanFraction_universalLineFeeds, scanExponent_universalLineFeeds]

/-- **A literal** ends at the same place. -/
theorem scan_universalLineFeeds (t : Text) :
    scan (universalLineFeeds t) = (scan t).map fun p => (p.1, universalLineFeeds p.2) := by
  by_cases hminus : t.head? = some (CodePoint.ofChar '-')
  · obtain ⟨u, rfl⟩ := List.head?_eq_some_iff.mp hminus
    rw [universalLineFeeds_cons (by decide), scan_minus, scan_minus]
    exact scanUnsigned_universalLineFeeds true u
  · have houtside : ∀ {t : Text}, t.head? ≠ some (CodePoint.ofChar '-') →
        BeginsOutside (· = CodePoint.ofChar '-') t := by
      rintro t ht c hc
      rw [decide_eq_false_iff_not]
      rintro rfl
      exact ht hc
    have hminus' := mt (head?_universalLineFeeds_eq_iff (by decide) (by decide)).mp hminus
    rw [scan_of_beginsOutside (houtside hminus), scan_of_beginsOutside (houtside hminus')]
    exact scanUnsigned_universalLineFeeds false t

end NumberLiteral

/-! ### Tokens -/

namespace Token

/-- No word has a line end in it. -/
theorem ne_lineFeed_of_mem_words : ∀ w ∈ words, ∀ c ∈ w.1,
    c ≠ CodePoint.ofChar '\r' ∧ c ≠ CodePoint.lineFeed := by
  decide

theorem scanWord_universalLineFeeds (t : Text) :
    scanWord (universalLineFeeds t) = (scanWord t).map fun p => (p.1, universalLineFeeds p.2) := by
  have hwords : ∀ ws : List (Text × Token), (∀ w ∈ ws, w ∈ words) →
      (ws.findSome? fun w => (after? w.1 (universalLineFeeds t)).map fun rest => (w.2, rest))
        = (ws.findSome? fun w => (after? w.1 t).map fun rest => (w.2, rest)).map
          fun p => (p.1, universalLineFeeds p.2) := by
    intro ws hws
    induction ws with
    | nil => rfl
    | cons w ws ih =>
      rw [List.forall_mem_cons] at hws
      rw [List.findSome?_cons, List.findSome?_cons,
        after?_universalLineFeeds (ne_lineFeed_of_mem_words w hws.1)]
      cases after? w.1 t with
      | none => exact ih hws.2
      | some rest => rfl
  exact hwords words fun w hw => hw

theorem scanNumber_universalLineFeeds (t : Text) :
    scanNumber (universalLineFeeds t)
      = mapRest (NoToken.map universalLineFeeds) universalLineFeeds (scanNumber t) := by
  rw [scanNumber, scanNumber, NumberLiteral.scan_universalLineFeeds]
  cases NumberLiteral.scan t with
  | none => rfl
  | some p =>
    obtain ⟨l, rest⟩ := p
    rw [Option.map_some]
    dsimp only
    cases l.value <;> rfl

/-- **One token** is scanned alike, or there is none for the same reason. -/
theorem scan_universalLineFeeds (t : Text) :
    scan (universalLineFeeds t)
      = mapRest (NoToken.map universalLineFeeds) universalLineFeeds (scan t) := by
  cases t with
  | nil => rfl
  | cons c t =>
    by_cases hc : c = CodePoint.ofChar '\r'
    · subst hc
      rfl
    · have hcons := universalLineFeeds_cons hc t
      rw [hcons, scan, scan]
      cases ofMark? c with
      | some mark => rfl
      | none =>
        dsimp only
        split_ifs with hquote
        · rw [StringUnit.scan_universalLineFeeds]
          cases StringUnit.scan [] t <;> rfl
        · rw [← hcons, scanWord_universalLineFeeds, scanNumber_universalLineFeeds]
          cases scanWord (c :: t) <;> rfl

end Token

/-! ### Whole texts -/

namespace Expecting

variable (f : Text → Text) (rest : Text)

theorem enter_map (around : List (Open Json)) (inside : Expecting Json) :
    (enter around inside).mapError (Refusal.map f) = enter around inside := by
  rw [enter]
  split_ifs <;> rfl

theorem beginValue_map (around : List (Open Json)) (token : Token) :
    beginValue around (f rest) token
      = (beginValue around rest token).mapError (Refusal.map f) := by
  cases token with
  | openArray | openObject => exact (enter_map f around _).symm
  | _ => rfl

theorem continueAfter_map (j : Json) (around : List (Open Json)) (token : Token) :
    continueAfter j (f rest) around token
      = (continueAfter j rest around token).mapError (Refusal.map f) := by
  cases around with
  | nil => rfl
  | cons o around => cases o <;> cases token <;> rfl

theorem step_map (state : Expecting Json) (token : Token) :
    state.step (f rest) token = (state.step rest token).mapError (Refusal.map f) := by
  cases state with
  | value around => exact beginValue_map f rest around token
  | item around =>
    by_cases hclose : token = .closeArray
    · rw [hclose]
      rfl
    · rw [step_item hclose, step_item hclose]
      exact beginValue_map f rest (.array [] :: around) token
  | firstKey around => cases token <;> rfl
  | key around members => cases token <;> rfl
  | colon around members key => cases token <;> rfl
  | done j around => exact continueAfter_map f rest j around token

end Expecting

end JsonLayout
