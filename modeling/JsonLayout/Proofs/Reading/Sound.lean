import JsonLayout.Proofs.Reading.Complete

/-!
# What is read derives from the grammar

Each state of the reader says what has been read: the beginnings of the containers that are open,
and behind them what the state has completed.  `Reached` spells that out as a relation between a
state and the text before it.  A token carries it from one state to the next, so it holds all along
a run, and at its end it is a derivation of the whole text.

A second invariant bounds what the state holds by the limits on nesting and on digits.

## Main definitions

* `Opened`, `Reached`: the texts that lead to a stack of open containers, and to a state.
* `Expecting.Within`: a state that holds nothing beyond the limits.

## Main results

* `exists_of_readFrom`: what every token carries on holds at the end of a run.
* `Reached.step`, `Expecting.Within.step`: the two invariants.
* `jsonText_of_readText`, `readable_of_readText`: a text that is read derives its value, which is
  within the limits.
-/

namespace JsonLayout

open Text

/-! ### Runs -/

theorem exists_skipJsonBlanks (t : Text) : ∃ w : Text, w.IsJsonBlank ∧ t = w ++ t.skipJsonBlanks :=
  ⟨t.takeWhile CodePoint.isJsonBlank, fun _ hc => List.mem_takeWhile_imp hc,
    List.takeWhile_append_dropWhile.symm⟩

theorem Expecting.eq_done_of_finish {state : Expecting Json} {t : Text} {noToken : NoToken}
    {j : Json} (h : state.finish t noToken = .ok j) : state = .done j [] ∧ t = [] := by
  match state, h with
  | .done k [], h =>
    rw [finish] at h
    split at h
    · next ht =>
      cases h
      exact ⟨rfl, List.isEmpty_iff.mp ht⟩
    · cases h

/-- **Runs.**  What holds of a state and the text before it, and is carried on by every token, holds
at the end of a run that gives a value; only white space is left there. -/
theorem exists_of_readFrom {I : Expecting Json → Text → Prop}
    (step : ∀ {state state' : Expecting Json} {p w q rest : Text} {token : Token}, I state p →
      w.IsJsonBlank → TokenText q token → token.WithinDigitLimit →
      state.step (q ++ rest) token = .ok state' → I state' (p ++ w ++ q))
    {state : Expecting Json} {p t : Text} {j : Json} (hI : I state p)
    (h : readFrom state t = .ok j) :
    ∃ p' w, I (.done j []) p' ∧ w.IsJsonBlank ∧ p ++ t = p' ++ w := by
  induction hlen : t.length using Nat.strongRecOn generalizing state p t with
  | ind n ih =>
    obtain ⟨w, hw, ht⟩ := exists_skipJsonBlanks t
    rw [readFrom_eq] at h
    split at h
    · obtain ⟨rfl, hnil⟩ := Expecting.eq_done_of_finish h
      rw [hnil, List.append_nil] at ht
      exact ⟨p, w, hI, hw, by rw [ht]⟩
    · next token rest hs =>
      obtain ⟨q, hq, hqr, hn⟩ := Token.exists_of_scan hs
      cases hstep : state.step t.skipJsonBlanks token with
      | error refusal =>
        rw [hstep] at h
        cases h
      | ok state' =>
        rw [hstep] at h
        have hlt := Token.length_scan_lt hs
        have hle := length_dropWhile_le CodePoint.isJsonBlank t
        rw [hqr] at hstep
        obtain ⟨p', w', hI', hw', he⟩ :=
          ih rest.length (hlen ▸ Nat.lt_of_lt_of_le hlt hle) (step hI hw hq hn hstep) h rfl
        refine ⟨p', w', hI', hw', ?_⟩
        rw [← he, ht, hqr]
        simp only [List.append_assoc]

/-! ### What has been read -/

/-- Parts of a container, each with the comma behind it. -/
def commaAfterEach (ts : List Text) : Text := ts.flatMap (· ++ [CodePoint.ofChar ','])

theorem Text.join_concat (ts : List Text) (t : Text) :
    Text.join [CodePoint.ofChar ','] (ts ++ [t]) = commaAfterEach ts ++ t := by
  induction ts with
  | nil => exact Text.join_singleton _ t
  | cons s ts ih =>
    rw [List.cons_append, Text.join_cons _ _ (by simp), ih, commaAfterEach, commaAfterEach,
      List.flatMap_cons]
    simp only [List.append_assoc]

/-- The members that stand for the given ones, in a text that is written as `parts`. -/
structure MemberParts (parts : List (Padded Text × Padded Json)) (members : List (Text × Json)) :
    Prop where
  keys : ∀ p ∈ parts, StringText p.1.body p.1.value
  values : ∀ p ∈ parts, ValueText p.2.body p.2.value
  eq : parts.map (fun p => (p.1.value, p.2.value)) = members

/-- The items that stand for the given ones. -/
structure ItemParts (parts : List (Padded Json)) (items : List Json) : Prop where
  values : ∀ p ∈ parts, ValueText p.body p.value
  eq : parts.map Padded.value = items

/-- A text that opens containers, innermost first, up to where a value is expected in them. -/
inductive Opened : List (Open Json) → Text → Prop where
  | nil : Opened [] []
  | array {around : List (Open Json)} {items : List Json} {t w : Text} {parts : List (Padded Json)}
      (h : Opened around t) (hw : w.IsJsonBlank) (hparts : ItemParts parts items.reverse) :
      Opened (.array items :: around)
        (t ++ w ++ CodePoint.ofChar '[' :: commaAfterEach (parts.map Padded.text))
  | object {around : List (Open Json)} {members : List (Text × Json)} {t w : Text}
      {parts : List (Padded Text × Padded Json)} {key : Padded Text} (h : Opened around t)
      (hw : w.IsJsonBlank) (hparts : MemberParts parts members.reverse)
      (hkey : StringText key.body key.value) :
      Opened (.object members key.value :: around)
        (t ++ w ++ CodePoint.ofChar '{' :: (commaAfterEach (parts.map memberText) ++
          (key.text ++ [CodePoint.ofChar ':'])))

/-- A text that leads to a state. -/
inductive Reached : Expecting Json → Text → Prop where
  | value {around : List (Open Json)} {t : Text} (h : Opened around t) : Reached (.value around) t
  | item {around : List (Open Json)} {t w : Text} (h : Opened around t) (hw : w.IsJsonBlank) :
      Reached (.item around) (t ++ w ++ [CodePoint.ofChar '['])
  | firstKey {around : List (Open Json)} {t w : Text} (h : Opened around t) (hw : w.IsJsonBlank) :
      Reached (.firstKey around) (t ++ w ++ [CodePoint.ofChar '{'])
  | key {around : List (Open Json)} {members : List (Text × Json)} {t w : Text}
      {parts : List (Padded Text × Padded Json)} (h : Opened around t) (hw : w.IsJsonBlank)
      (hparts : MemberParts parts members.reverse) :
      Reached (.key around members)
        (t ++ w ++ CodePoint.ofChar '{' :: commaAfterEach (parts.map memberText))
  | colon {around : List (Open Json)} {members : List (Text × Json)} {t w w' q k : Text}
      {parts : List (Padded Text × Padded Json)} (h : Opened around t) (hw : w.IsJsonBlank)
      (hparts : MemberParts parts members.reverse) (hw' : w'.IsJsonBlank) (hq : StringText q k) :
      Reached (.colon around members k)
        (t ++ w ++ CodePoint.ofChar '{' :: (commaAfterEach (parts.map memberText) ++ (w' ++ q)))
  | done {around : List (Open Json)} {t w b : Text} {j : Json} (h : Opened around t)
      (hw : w.IsJsonBlank) (hb : ValueText b j) : Reached (.done j around) (t ++ w ++ b)

/-! ### One more token -/

theorem ItemParts.concat {parts : List (Padded Json)} {items : List Json}
    (h : ItemParts parts items.reverse) {p : Padded Json} (hp : ValueText p.body p.value) :
    ItemParts (parts ++ [p]) (p.value :: items).reverse := by
  constructor
  · rw [List.forall_mem_append, List.forall_mem_singleton]
    exact ⟨h.values, hp⟩
  · rw [List.map_append, h.eq, List.map_singleton, List.reverse_cons]

theorem MemberParts.concat {parts : List (Padded Text × Padded Json)}
    {members : List (Text × Json)} (h : MemberParts parts members.reverse)
    {p : Padded Text × Padded Json} (hk : StringText p.1.body p.1.value)
    (hv : ValueText p.2.body p.2.value) :
    MemberParts (parts ++ [p]) ((p.1.value, p.2.value) :: members).reverse := by
  constructor
  · rw [List.forall_mem_append, List.forall_mem_singleton]
    exact ⟨h.keys, hk⟩
  · rw [List.forall_mem_append, List.forall_mem_singleton]
    exact ⟨h.values, hv⟩
  · rw [List.map_append, h.eq, List.map_singleton, List.reverse_cons]

theorem commaAfterEach_concat (ts : List Text) (t : Text) :
    commaAfterEach (ts ++ [t]) = commaAfterEach ts ++ (t ++ [CodePoint.ofChar ',']) := by
  rw [commaAfterEach, List.flatMap_append, List.flatMap_singleton]
  rfl

theorem Reached.congr {state : Expecting Json} {p p' : Text} (h : Reached state p) (he : p = p') :
    Reached state p' := he ▸ h

/-- Where a value is expected, a token completes a scalar or opens a container. -/
theorem Opened.beginValue {around : List (Open Json)} {t w q rest : Text} {token : Token}
    {state : Expecting Json} (h : Opened around t) (hw : w.IsJsonBlank) (hq : TokenText q token)
    (hs : Expecting.beginValue around rest token = .ok state) : Reached state (t ++ w ++ q) := by
  cases hq with
  | openArray =>
    rw [Expecting.beginValue, Expecting.enter] at hs
    split at hs <;> cases hs
    exact .item h hw
  | openObject =>
    rw [Expecting.beginValue, Expecting.enter] at hs
    split at hs <;> cases hs
    exact .firstKey h hw
  | string hq => cases hs; exact .done h hw (.string hq)
  | number hq => cases hs; exact .done h hw (.number hq)
  | null => cases hs; exact .done h hw .null
  | true => cases hs; exact .done h hw .true
  | false => cases hs; exact .done h hw .false
  | _ => cases hs

/-- Behind a complete value, a token goes on to the next part of the container around it, or closes
that container. -/
theorem Opened.continueAfter {around : List (Open Json)} {t w b w' q rest : Text} {j : Json}
    {token : Token} {state : Expecting Json} (h : Opened around t) (hw : w.IsJsonBlank)
    (hb : ValueText b j) (hw' : w'.IsJsonBlank) (hq : TokenText q token)
    (hs : Expecting.continueAfter j rest around token = .ok state) :
    Reached state (t ++ w ++ b ++ w' ++ q) := by
  let p : Padded Json := ⟨w, b, w', j, hw, hw'⟩
  cases h with
  | nil => cases hs
  | @array outer items t w₁ parts h hw₁ hparts =>
    have hparts' := hparts.concat (p := p) hb
    cases hq with
    | closeArray =>
      cases hs
      rw [← hparts'.eq]
      refine (Reached.done h hw₁ (.array (by simp) hparts'.values)).congr ?_
      rw [List.map_append, List.map_singleton, Text.join_concat]
      simp [p, Padded.text]
    | comma =>
      cases hs
      refine (Reached.value (.array h hw₁ hparts')).congr ?_
      rw [List.map_append, List.map_singleton, commaAfterEach_concat]
      simp [p, Padded.text]
    | _ => cases hs
  | @object outer members t w₁ parts key h hw₁ hparts hkey =>
    have hparts' := hparts.concat (p := (key, p)) hkey hb
    cases hq with
    | closeObject =>
      cases hs
      rw [← hparts'.eq]
      refine (Reached.done h hw₁ (.object (by simp) hparts'.keys hparts'.values)).congr ?_
      rw [List.map_append, List.map_singleton, Text.join_concat]
      simp [p, Padded.text, memberText]
    | comma =>
      cases hs
      refine (Reached.key h hw₁ hparts').congr ?_
      rw [List.map_append, List.map_singleton, commaAfterEach_concat]
      simp [p, Padded.text, memberText]
    | _ => cases hs

/-- **A token leads from one state to the next.** -/
theorem Reached.step {state state' : Expecting Json} {p w q rest : Text} {token : Token}
    (h : Reached state p) (hw : w.IsJsonBlank) (hq : TokenText q token)
    (hs : state.step (q ++ rest) token = .ok state') : Reached state' (p ++ w ++ q) := by
  cases h with
  | value h => exact h.beginValue hw hq hs
  | @item around t w₁ h hw₁ =>
    by_cases hclose : token = .closeArray
    · subst hclose
      cases hq
      cases hs
      refine (Reached.done h hw₁ (.emptyArray hw)).congr ?_
      simp
    · rw [Expecting.step_item hclose] at hs
      have hparts : ItemParts [] (List.reverse []) := ⟨by simp, rfl⟩
      have hopen := Opened.array h hw₁ hparts
      exact (hopen.beginValue hw hq hs).congr (by simp [commaAfterEach])
  | @firstKey around t w₁ h hw₁ =>
    cases hq with
    | closeObject =>
      cases hs
      refine (Reached.done h hw₁ (.emptyObject hw)).congr ?_
      simp
    | string hq =>
      cases hs
      have hparts : MemberParts [] (List.reverse []) := ⟨by simp, by simp, rfl⟩
      refine (Reached.colon h hw₁ hparts hw hq).congr ?_
      simp [commaAfterEach]
    | _ => cases hs
  | @key around members t w₁ parts h hw₁ hparts =>
    cases hq with
    | string hq =>
      cases hs
      refine (Reached.colon h hw₁ hparts hw hq).congr ?_
      simp
    | _ => cases hs
  | @colon around members t w₁ w₂ b k parts h hw₁ hparts hw₂ hb =>
    cases hq with
    | colon =>
      cases hs
      let key : Padded Text := ⟨w₂, b, w, k, hw₂, hw⟩
      have hkey : StringText key.body key.value := hb
      refine (Reached.value (.object h hw₁ hparts hkey)).congr ?_
      simp [key, Padded.text]
    | _ => cases hs
  | @done around t w₁ b j h hw₁ hb => exact h.continueAfter hw₁ hb hw hq hs

theorem readFrom_of_readText {t : Text} {j : Json} (h : readText t = .ok j) :
    readFrom (.value []) t = .ok j := by
  rw [readText, readAs] at h
  split at h
  · cases h
  · cases hr : readFrom (.value [] : Expecting Json) t with
    | error refusal =>
      rw [hr] at h
      cases h
    | ok k =>
      rw [hr] at h
      cases h
      rfl

/-- **What is read derives from the grammar.** -/
theorem jsonText_of_readText {t : Text} {j : Json} (h : readText t = .ok j) : JsonText t j := by
  obtain ⟨p, w, hp, hw, ht⟩ := exists_of_readFrom (I := Reached)
    (fun hI hw hq _ hs => hI.step hw hq hs) (.value .nil) (readFrom_of_readText h)
  cases hp with
  | @done _ t₀ w₀ b _ h₀ hw₀ hb =>
    cases h₀
    exact ⟨⟨w₀, b, w, j, hw₀, hw⟩, hb, ht.symm, rfl⟩

/-! ### Limits -/

/-- Open containers, nested no deeper than is read, that hold nothing beyond the limits. -/
def OpenWithin : List (Open Json) → Prop
  | [] => True
  | .array items :: around =>
    around.length < nestingLimit ∧
      (∀ j ∈ items, j.Readable (nestingLimit - (around.length + 1))) ∧ OpenWithin around
  | .object members _ :: around =>
    around.length < nestingLimit ∧
      (∀ m ∈ members, m.2.Readable (nestingLimit - (around.length + 1))) ∧ OpenWithin around

namespace Expecting

/-- A state that holds nothing beyond the limits. -/
def Within : Expecting Json → Prop
  | .value around => OpenWithin around
  | .item around => OpenWithin (.array [] :: around)
  | .firstKey around => OpenWithin (.object [] [] :: around)
  | .key around members => OpenWithin (.object members [] :: around)
  | .colon around members k => OpenWithin (.object members k :: around)
  | .done j around => j.Readable (nestingLimit - around.length) ∧ OpenWithin around

theorem within_beginValue {around : List (Open Json)} {rest : Text} {token : Token}
    {state : Expecting Json} (h : OpenWithin around) (hn : token.WithinDigitLimit)
    (hs : beginValue around rest token = .ok state) : state.Within := by
  -- a container that is opened holds nothing yet, and a scalar is as small as its token
  have hscalar : ∀ j : Json, j.nesting = 0 → j.numbers = [] →
      j.Readable (nestingLimit - around.length) := by
    intro j hnest hnum
    refine ⟨by omega, ?_⟩
    rw [hnum]
    exact List.forall_mem_nil _
  cases token with
  | openArray | openObject =>
    rw [beginValue, enter] at hs
    split at hs
    · next hlt =>
      cases hs
      exact ⟨hlt, List.forall_mem_nil _, h⟩
    · cases hs
  | string s => cases hs; exact ⟨hscalar _ rfl rfl, h⟩
  | null => cases hs; exact ⟨hscalar _ rfl rfl, h⟩
  | bool b => cases hs; exact ⟨hscalar _ rfl rfl, h⟩
  | number n =>
    cases hs
    exact ⟨⟨Nat.zero_le _, List.forall_mem_singleton.mpr hn⟩, h⟩
  | _ => cases hs

theorem within_continueAfter {around : List (Open Json)} {rest : Text} {j : Json} {token : Token}
    {state : Expecting Json} (hj : j.Readable (nestingLimit - around.length))
    (h : OpenWithin around) (hs : continueAfter j rest around token = .ok state) :
    state.Within := by
  match around, h with
  | [], _ => cases hs
  | .array items :: around, ⟨hlt, hitems, h⟩ =>
    have hitems' := List.forall_mem_cons.mpr ⟨hj, hitems⟩
    cases token with
    | comma => cases hs; exact ⟨hlt, hitems', h⟩
    | closeArray =>
      cases hs
      refine ⟨?_, h⟩
      rw [show nestingLimit - around.length = nestingLimit - (around.length + 1) + 1 by omega]
      exact Json.readable_array_iff.mpr fun k hk => hitems' k (List.mem_reverse.mp hk)
    | _ => cases hs
  | .object members k :: around, ⟨hlt, hmembers, h⟩ =>
    have hmembers' : ∀ m ∈ (k, j) :: members, m.2.Readable (nestingLimit - (around.length + 1)) :=
      List.forall_mem_cons.mpr ⟨hj, hmembers⟩
    cases token with
    | comma => cases hs; exact ⟨hlt, hmembers', h⟩
    | closeObject =>
      cases hs
      refine ⟨?_, h⟩
      rw [show nestingLimit - around.length = nestingLimit - (around.length + 1) + 1 by omega]
      exact Json.readable_object_iff.mpr fun m hm => hmembers' m (List.mem_reverse.mp hm)
    | _ => cases hs

/-- **A token leads to nothing beyond the limits.** -/
theorem Within.step {state state' : Expecting Json} {rest : Text} {token : Token} (h : state.Within)
    (hn : token.WithinDigitLimit) (hs : state.step rest token = .ok state') : state'.Within := by
  have hempty : ∀ {around : List (Open Json)} {j : Json}, around.length < nestingLimit →
      j = .array [] ∨ j = .object [] → j.Readable (nestingLimit - around.length) := by
    rintro around j hlt (rfl | rfl)
    · exact ⟨by rw [Json.nesting, itemsNesting]; omega, List.forall_mem_nil _⟩
    · exact ⟨by rw [Json.nesting, membersNesting]; omega, List.forall_mem_nil _⟩
  cases state with
  | value around => exact within_beginValue h hn hs
  | item around =>
    by_cases hclose : token = .closeArray
    · subst hclose
      cases hs
      exact ⟨hempty h.1 (.inl rfl), h.2.2⟩
    · rw [step_item hclose] at hs
      exact within_beginValue h hn hs
  | firstKey around =>
    cases token with
    | closeObject => cases hs; exact ⟨hempty h.1 (.inr rfl), h.2.2⟩
    | string s => cases hs; exact h
    | _ => cases hs
  | key around members =>
    cases token with
    | string s => cases hs; exact h
    | _ => cases hs
  | colon around members k =>
    cases token with
    | colon => cases hs; exact h
    | _ => cases hs
  | done j around => exact within_continueAfter h.1 h.2 hs

end Expecting

/-- **What is read is within the limits.** -/
theorem readable_of_readText {t : Text} {j : Json} (h : readText t = .ok j) :
    j.Readable nestingLimit := by
  have hstart : Expecting.Within (.value []) := trivial
  obtain ⟨p, w, hp, -, -⟩ := exists_of_readFrom (I := fun state _ => state.Within) (p := [])
    (fun hI _ _ hn hs => hI.step hn hs) hstart (readFrom_of_readText h)
  exact hp.1

end JsonLayout
