import JsonLayout.Proofs.Reading.Beginnings
import JsonLayout.Proofs.Reading.Ends

/-!
# No complete text begins a longer one

The reader does not look beyond the end of a value, unless it is a number literal.  So a text that
is read leaves nothing to a longer text but white space; what else comes is extra data.  A number
literal can be cut short: then the longer text is a longer literal.

## Main definitions

* `Text.StopsInLiteral`: a text that ends within a number literal, and the rest of the literal.

## Main results

* `isJsonBlank_of_readText_append`: nothing but white space follows a complete text.
* `readText_append_extraData`: the fault behind a complete text, and its place.
* `isJsonBlank_or_stopsInLiteral`: what a complete text can leave to a longer one.
-/

namespace JsonLayout

open Text

/-- **A complete text** leads to its value, whatever follows.  Only a number must not go on. -/
theorem readFrom_append_of_readText {t rest : Text} {j : Json} (h : readText t = .ok j)
    (hrest : (∃ n, j = .number n) → BeginsOutside CodePoint.isNumberPart rest) :
    readFrom (.value []) (t ++ rest) = readFrom (.done j []) rest := by
  obtain ⟨p, w, hp, hw, rfl⟩ := exists_of_readFrom (I := Expecting.ResumesAfter)
    (fun hI hw hq hn hs => hI.step hw hq hn hs) Expecting.resumesAfter_nil (readFrom_of_readText h)
  rw [List.append_assoc, hp, readFrom_blank hw]
  intro hnumber
  refine hw.beginsOutside_append (hrest ?_)
  cases j with
  | number n => exact ⟨n, rfl⟩
  | _ => cases hnumber

/-- Once a whole value is read, nothing but white space may follow. -/
theorem isJsonBlank_of_readFrom_done {t : Text} {j k : Json}
    (h : readFrom (.done j []) t = .ok k) : t.IsJsonBlank := by
  obtain ⟨w, hw, ht⟩ := exists_skipJsonBlanks t
  rw [readFrom_eq] at h
  split at h
  · obtain ⟨-, hnil⟩ := Expecting.eq_done_of_finish h
    rw [ht, hnil, List.append_nil]
    exact hw
  · cases h

/-- Nothing but white space follows a complete text, unless it goes on with a number. -/
theorem isJsonBlank_of_readText_append {t rest : Text} {j k : Json} (h : readText t = .ok j)
    (hrest : BeginsOutside CodePoint.isNumberPart rest) (hk : readText (t ++ rest) = .ok k) :
    rest.IsJsonBlank := by
  have hread := readFrom_append_of_readText h fun _ => hrest
  exact isJsonBlank_of_readFrom_done (hread.symm.trans (readFrom_of_readText hk))

/-! ### Extra data -/

theorem exists_cons_of_not_isJsonBlank {t : Text} (h : ¬ Text.IsJsonBlank t) :
    ∃ (w u : Text) (c : CodePoint), t = w ++ c :: u ∧ w.IsJsonBlank ∧ c.isJsonBlank = false := by
  obtain ⟨w, hw, ht⟩ := exists_skipJsonBlanks t
  have houtside : BeginsOutside CodePoint.isJsonBlank t.skipJsonBlanks :=
    beginsOutside_dropWhile CodePoint.isJsonBlank t
  rcases hskip : t.skipJsonBlanks with _ | ⟨c, u⟩
  · rw [hskip, List.append_nil] at ht
    exact absurd (ht ▸ hw) h
  · rw [hskip] at ht houtside
    exact ⟨w, u, c, ht, hw, beginsOutside_cons_iff.mp houtside⟩

/-- Once a whole value is read, anything but white space is extra, whether it is a token or not. -/
theorem readFrom_done_extraData (j : Json) {w u : Text} {c : CodePoint} (hw : w.IsJsonBlank)
    (hc : c.isJsonBlank = false) :
    readFrom (.done j []) (w ++ c :: u) = .error (.fault .extraData (c :: u)) := by
  rw [readFrom_blank hw, readFrom_eq, skipJsonBlanks_cons hc]
  split <;> rfl

/-- **Extra data** behind a complete text: the fault is where the white space ends. -/
theorem readText_append_extraData {t w u : Text} {c : CodePoint} {j : Json}
    (h : readText t = .ok j) (hw : w.IsJsonBlank) (hc : c.isJsonBlank = false)
    (hrest : BeginsOutside CodePoint.isNumberPart (w ++ c :: u)) :
    readText (t ++ (w ++ c :: u)) = .error (.fault .extraData (.behind (t ++ w))) := by
  have hhead : (t ++ (w ++ c :: u)).head? ≠ some byteOrderMark := by
    rw [List.head?_append_of_ne_nil _ (ne_nil_of_readText h)]
    exact (readText_eq_ok_iff.mp h).1.head?_ne_byteOrderMark
  have hread := readFrom_append_of_readText h fun _ => hrest
  have hplace := Refusal.toError_fault .extraData (t ++ w) (c :: u)
  rw [List.append_assoc] at hplace
  rw [readText, readAs, if_neg hhead, hread, readFrom_done_extraData j hw hc]
  exact congrArg Except.error hplace

/-! ### Cut literals -/

/-- A text that ends within a number literal, and the rest of that literal with the white space
behind it. -/
inductive Text.StopsInLiteral : Text → Text → Prop where
  | mk {w a b w' : Text} {l : NumberLiteral} (before : w.IsJsonBlank) (after : w'.IsJsonBlank)
      (goesOn : b ≠ []) (literal : LiteralText (a ++ b) l) : StopsInLiteral (w ++ a) (b ++ w')

/-- A text is split in one way only into characters of a class and what does not begin with one. -/
theorem Text.append_inj_of_beginsOutside {p : CodePoint → Bool} {a a' b b' : Text}
    (ha : ∀ c ∈ a, p c) (ha' : ∀ c ∈ a', p c) (hb : BeginsOutside p b) (hb' : BeginsOutside p b')
    (h : a ++ b = a' ++ b') : a = a' ∧ b = b' := by
  have hfirst : a = a' := by
    rw [← takeWhile_append_of_beginsOutside ha hb, h, takeWhile_append_of_beginsOutside ha' hb']
  subst hfirst
  exact ⟨rfl, List.append_cancel_left h⟩

/-- The names of the numbers that are not finite. -/
def numberNames : List Text := ["NaN", "Infinity", "-Infinity"]

/-- The characters that a number can begin with. -/
def CodePoint.startsNumber (c : CodePoint) : Bool :=
  c.isDigit || [ofChar '-', ofChar 'N', ofChar 'I'].contains c

section

variable {t a b : Text} {n m : Number}

theorem NumberText.exists_literal_or_mem_names (h : NumberText t n) :
    (∃ l, LiteralText t l) ∨ t ∈ numberNames := by
  cases h with
  | literal h => exact .inl ⟨_, h⟩
  | nan | infinity | minusInfinity => exact .inr (by decide)

theorem LiteralText.exists_isDigit {l : NumberLiteral} (h : LiteralText t l) :
    ∃ c ∈ t, c.isDigit := by
  obtain @⟨negative, whole, f, e, fraction, exponent, hw, -, -⟩ := h
  obtain ⟨c, w, rfl⟩ := List.exists_cons_of_ne_nil hw.1.1
  exact ⟨c, by simp, hw.1.2 c List.mem_cons_self⟩

/-- Of the numbers, only literals go on from numbers. -/
theorem NumberText.literal_of_append (h : NumberText a n) (h' : NumberText (a ++ b) m)
    (hb : b ≠ []) : ∃ l, LiteralText (a ++ b) l := by
  have hdigits : ∀ name ∈ numberNames, ∀ c ∈ name, c.isDigit = false := by decide
  have hprefix : ∀ name ∈ numberNames, ∀ name' ∈ numberNames, name <+: name' → name = name' := by
    decide
  refine h'.exists_literal_or_mem_names.resolve_right fun hname => ?_
  rcases h.exists_literal_or_mem_names with ⟨l, hl⟩ | hname'
  · obtain ⟨c, hc, hdigit⟩ := hl.exists_isDigit
    rw [hdigits _ hname c (List.mem_append_left b hc)] at hdigit
    cases hdigit
  · have he := hprefix a hname' _ hname (List.prefix_append a b)
    exact hb (List.self_eq_append_right.mp he)

theorem NumberText.exists_cons_startsNumber (h : NumberText t n) :
    ∃ c u, t = c :: u ∧ c.startsNumber := by
  cases h with
  | literal h =>
    obtain ⟨c, u, rfl, hc | rfl⟩ := h.exists_cons
    · exact ⟨c, u, rfl, by rw [CodePoint.startsNumber, hc]; rfl⟩
    · exact ⟨_, u, rfl, rfl⟩
  | nan | infinity | minusInfinity => exact ⟨_, _, rfl, rfl⟩

/-- What begins as a number does is one. -/
theorem ValueText.exists_numberText {c : CodePoint} {u : Text} {j : Json} (h : ValueText t j)
    (ht : t = c :: u) (hc : c.startsNumber) : ∃ n, NumberText t n := by
  have hfirst {d : CodePoint} {v : Text} (hd : ¬ d.startsNumber) : d :: v ≠ c :: u := by
    intro he
    rw [(List.cons.inj he).1] at hd
    exact hd hc
  cases h with
  | number h => exact ⟨_, h⟩
  | string h =>
    cases h
    exact absurd ht (hfirst (by decide))
  | _ => exact absurd ht (hfirst (by decide))

end

/-- White space is no part of a number. -/
theorem CodePoint.isNumeral_of_isJsonBlank {c : CodePoint} (h : c.isJsonBlank) :
    c.isNumeral = false := by
  by_contra hc
  rw [Bool.not_eq_false, isNumeral, Bool.or_eq_true, List.contains_iff_mem] at hc
  rcases hc with hc | hc
  · simp only [isJsonBlank, Bool.or_eq_true, beq_iff_eq] at h
    simp only [isDigit, Bool.or_eq_true, Bool.and_eq_true, decide_eq_true_eq] at hc
    omega
  · have hmarks : ∀ d ∈ [ofChar '+', ofChar '-', ofChar '.'], d.isJsonBlank = false := by decide
    rw [hmarks c hc] at h
    cases h

theorem Text.IsJsonBlank.beginsOutside_isNumeral {t : Text} (h : t.IsJsonBlank) :
    BeginsOutside CodePoint.isNumeral t :=
  fun c hc => CodePoint.isNumeral_of_isJsonBlank (h c (List.mem_of_mem_head? hc))

/-- White space in front is split off in one way only. -/
theorem ValueText.append_inj_of_isJsonBlank {a b w w' x y : Text} {j k : Json}
    (ha : ValueText a j) (hb : ValueText b k) (hw : w.IsJsonBlank) (hw' : w'.IsJsonBlank)
    (h : w ++ (a ++ x) = w' ++ (b ++ y)) : w = w' ∧ a ++ x = b ++ y := by
  obtain ⟨c, u, rfl, hc, -⟩ := ha.exists_cons
  obtain ⟨d, v, rfl, hd, -⟩ := hb.exists_cons
  exact append_inj_of_beginsOutside hw hw' (beginsOutside_cons_iff.mpr hc.not_isJsonBlank)
    (beginsOutside_cons_iff.mpr hd.not_isJsonBlank) h

/-- A value that begins where a number does is a number, and takes all numerals that there are: it
goes on from the number. -/
theorem NumberText.exists_append_of_append_eq {a b x v : Text} {n : Number} {k : Json}
    (ha : NumberText a n) (hb : ValueText b k) (hv : v.IsJsonBlank) (h : a ++ x = b ++ v) :
    ∃ r m, NumberText (a ++ r) m ∧ b = a ++ r ∧ x = r ++ v := by
  obtain ⟨m, hm⟩ : ∃ m, NumberText b m := by
    obtain ⟨c, u, rfl, hc⟩ := ha.exists_cons_startsNumber
    obtain ⟨d, y, rfl, -⟩ := hb.exists_cons
    obtain rfl : c = d := (List.cons.inj h).1
    exact hb.exists_numberText rfl hc
  have hx := List.takeWhile_append_dropWhile (p := CodePoint.isNumeral) (l := x)
  rw [← hx, ← List.append_assoc] at h
  obtain ⟨rfl, hrest⟩ := append_inj_of_beginsOutside
    (List.forall_mem_append.mpr ⟨ha.isNumeral, fun _ hc => List.mem_takeWhile_imp hc⟩)
    hm.isNumeral (beginsOutside_dropWhile _ _) hv.beginsOutside_isNumeral h
  exact ⟨_, m, hm, rfl, by rw [← hrest, hx]⟩

/-- A number that is read goes on, if at all, to a longer literal. -/
theorem isJsonBlank_or_stopsInLiteral_of_number {t rest : Text} {n : Number} {k : Json}
    (h : JsonText t (.number n)) (hk : JsonText (t ++ rest) k) :
    rest.IsJsonBlank ∨ t.StopsInLiteral rest := by
  obtain ⟨⟨w, a, v, j, hw, hv⟩, hp, rfl, hj⟩ := h
  obtain ⟨⟨w', b, v', k, hw', hv'⟩, hp', htext, -⟩ := hk
  obtain rfl : j = .number n := hj
  have ha : NumberText a n := by
    cases hp with
    | number ha => exact ha
  have hsplit : w ++ (a ++ (v ++ rest)) = w' ++ (b ++ v') := by
    simpa [Padded.text] using htext.symm
  obtain ⟨-, hvalues⟩ := hp.append_inj_of_isJsonBlank hp' hw hw' hsplit
  obtain ⟨r, m, hr, -, hrest⟩ := ha.exists_append_of_append_eq hp' hv' hvalues
  rcases r with _ | ⟨c, r⟩
  · rw [List.nil_append] at hrest
    rw [← hrest] at hv'
    exact .inl (List.forall_mem_append.mp hv').2
  · right
    rcases v with _ | ⟨d, v⟩
    · obtain ⟨l, hl⟩ := ha.literal_of_append hr (List.cons_ne_nil c r)
      have hstops := StopsInLiteral.mk hw hv' (List.cons_ne_nil c r) hl
      rw [← hrest] at hstops
      simpa [Padded.text] using hstops
    · -- the literal would go on with white space
      obtain rfl : d = c := (List.cons.inj hrest).1
      have hblank := CodePoint.isNumeral_of_isJsonBlank (hv d List.mem_cons_self)
      rw [hr.isNumeral d (List.mem_append_right a List.mem_cons_self)] at hblank
      cases hblank

/-- **What a complete text can leave** to a longer one: white space, or the rest of a literal. -/
theorem isJsonBlank_or_stopsInLiteral {t rest : Text} {j k : Json} (h : readText t = .ok j)
    (hk : readText (t ++ rest) = .ok k) : rest.IsJsonBlank ∨ t.StopsInLiteral rest := by
  by_cases hnumber : ∃ n, j = .number n
  · obtain ⟨n, rfl⟩ := hnumber
    exact isJsonBlank_or_stopsInLiteral_of_number (jsonText_of_readText h)
      (jsonText_of_readText hk)
  · have hread : readFrom (.value []) (t ++ rest) = readFrom (.done j []) rest :=
      readFrom_append_of_readText h fun hn => absurd hn hnumber
    exact .inl (isJsonBlank_of_readFrom_done (hread.symm.trans (readFrom_of_readText hk)))

end JsonLayout
