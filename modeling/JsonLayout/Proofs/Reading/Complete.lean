import JsonLayout.Proofs.Token.Scan

/-!
# What the grammar derives is read

The reader is followed through the text of a value: from a state that expects the value it comes to
the state that has it complete, whatever containers are open around.  White space is skipped, and a
container is read part by part.

## Main results

* `readFrom_blank`, `readFrom_token`: white space and one token at the front of a text.
* `ValueText.readThrough`: a value within the limits is read to its end.
* `JsonText.readText_eq_ok`: a whole text gives the value that it derives.
-/

namespace JsonLayout

open Text

variable {rest : Text}

/-! ### White space -/

theorem Text.IsJsonBlank.skipJsonBlanks_append {w : Text} (h : w.IsJsonBlank) (t : Text) :
    Text.skipJsonBlanks (w ++ t) = Text.skipJsonBlanks t :=
  List.dropWhile_append_of_pos h

theorem skipJsonBlanks_cons {c : CodePoint} {t : Text} (h : c.isJsonBlank = false) :
    Text.skipJsonBlanks (c :: t) = c :: t :=
  List.dropWhile_cons_of_neg (by simp [h])

/-- White space does not go on with a number. -/
theorem Text.IsJsonBlank.beginsOutside_append {w t : Text} (h : w.IsJsonBlank)
    (ht : BeginsOutside CodePoint.isNumberPart t) :
    BeginsOutside CodePoint.isNumberPart (w ++ t) := by
  cases w with
  | nil => exact ht
  | cons c w =>
    rw [List.cons_append, beginsOutside_cons_iff]
    have hc := h c (List.mem_cons_self ..)
    simp only [CodePoint.isJsonBlank, Bool.or_eq_true, beq_iff_eq] at hc
    have hne : ∀ d : CodePoint, d.isJsonBlank = false → c ≠ d := by
      intro d hd
      exact CodePoint.ne_of_class (h c (List.mem_cons_self ..)) hd
    simp only [CodePoint.isNumberPart, CodePoint.isDigit, hne (CodePoint.ofChar '.') rfl,
      hne (CodePoint.ofChar 'e') rfl, hne (CodePoint.ofChar 'E') rfl, decide_false,
      Bool.or_false, Bool.and_eq_false_iff, decide_eq_false_iff_not]
    omega

/-- What the first character of a token is not. -/
structure CodePoint.BeginsToken (c : CodePoint) : Prop where
  not_isJsonBlank : c.isJsonBlank = false
  ne_byteOrderMark : c ≠ byteOrderMark

theorem CodePoint.BeginsToken.of_isDigit {c : CodePoint} (h : c.isDigit) : c.BeginsToken := by
  simp only [isDigit, Bool.and_eq_true, decide_eq_true_eq] at h
  constructor
  · simp only [isJsonBlank, Bool.or_eq_false_iff, beq_eq_false_iff_ne]
    omega
  · rintro rfl
    exact absurd h (by decide)

theorem LiteralText.exists_cons {t : Text} {l : NumberLiteral} (h : LiteralText t l) :
    ∃ c u, t = c :: u ∧ (c.isDigit ∨ c = CodePoint.ofChar '-') := by
  obtain @⟨negative, whole, f, e, fraction, exponent, hw, -, -⟩ := h
  obtain ⟨c, w, rfl⟩ := List.exists_cons_of_ne_nil hw.1.1
  cases negative with
  | true => exact ⟨_, _, rfl, .inr rfl⟩
  | false => exact ⟨_, _, rfl, .inl (hw.1.2 c (List.mem_cons_self ..))⟩

theorem TokenText.exists_cons {t : Text} {token : Token} (h : TokenText t token) :
    ∃ c u, t = c :: u ∧ c.BeginsToken := by
  cases h with
  | number h =>
    cases h with
    | literal h =>
      obtain ⟨c, u, rfl, hc | rfl⟩ := h.exists_cons
      · exact ⟨c, u, rfl, .of_isDigit hc⟩
      · exact ⟨_, u, rfl, by decide, by decide⟩
    | nan | infinity | minusInfinity => exact ⟨_, _, rfl, by decide, by decide⟩
  | string h =>
    cases h
    exact ⟨_, _, rfl, by decide, by decide⟩
  | _ => exact ⟨_, _, rfl, by decide, by decide⟩

/-! ### One token -/

/-- One step of reading, without the bookkeeping of its termination. -/
theorem readFrom_eq {α : Type} [JsonLike α] (state : Expecting α) (t : Text) :
    readFrom state t =
      match Token.scan t.skipJsonBlanks with
      | .error noToken => state.finish t.skipJsonBlanks noToken
      | .ok (token, rest) =>
        (state.step t.skipJsonBlanks token).bind fun state' => readFrom state' rest := by
  rw [readFrom.eq_def]
  dsimp only
  split
  · next hs => rw [hs]
  · next token rest hs =>
    rw [hs]
    dsimp only
    cases state.step t.skipJsonBlanks token <;> rfl

theorem readFrom_blank {w : Text} (h : w.IsJsonBlank) (state : Expecting Json) (t : Text) :
    readFrom state (w ++ t) = readFrom state t := by
  rw [readFrom_eq, readFrom_eq state t, h.skipJsonBlanks_append]

/-- **One token.**  The state after it reads on. -/
theorem readFrom_token {q : Text} {token : Token} (h : TokenText q token)
    (hn : token.WithinDigitLimit)
    (hr : (∃ n, token = .number n) → BeginsOutside CodePoint.isNumberPart rest)
    (state : Expecting Json) :
    readFrom state (q ++ rest)
      = (state.step (q ++ rest) token).bind fun state' => readFrom state' rest := by
  have hscan := Token.scan_append h hn hr
  obtain ⟨c, u, rfl, hc⟩ := h.exists_cons
  rw [List.cons_append] at hscan ⊢
  rw [readFrom_eq, skipJsonBlanks_cons hc.not_isJsonBlank, hscan]

/-- The same for a token that is no number, behind white space. -/
theorem readFrom_mark {w q : Text} {token : Token} (hw : w.IsJsonBlank) (h : TokenText q token)
    (hn : ∀ n, token ≠ .number n) (state : Expecting Json) :
    readFrom state (w ++ (q ++ rest))
      = (state.step (q ++ rest) token).bind fun state' => readFrom state' rest := by
  rw [readFrom_blank hw]
  refine readFrom_token h ?_ (fun ⟨n, he⟩ => absurd he (hn n)) state
  cases token <;> first | trivial | exact absurd rfl (hn _)

/-! ### First parts -/

theorem ValueText.exists_cons {t : Text} {j : Json} (h : ValueText t j) :
    ∃ c u, t = c :: u ∧ c.BeginsToken ∧ c ≠ CodePoint.ofChar ']' := by
  cases h with
  | number h =>
    obtain ⟨c, u, rfl, hc⟩ := (TokenText.number h).exists_cons
    refine ⟨c, u, rfl, hc, ?_⟩
    rintro rfl
    cases h with
    | literal h =>
      obtain ⟨d, v, he, hd⟩ := h.exists_cons
      rw [← (List.cons.inj he).1] at hd
      exact absurd hd (by decide)
  | string h =>
    cases h
    exact ⟨_, _, rfl, by constructor <;> decide, by decide⟩
  | _ => exact ⟨_, _, rfl, by constructor <;> decide, by decide⟩

/-- Where an array may end instead, a token that does not end it begins an item as any other. -/
theorem Expecting.step_item {α : Type} [JsonLike α] {token : Token} (h : token ≠ .closeArray)
    (t : Text) (around : List (Open α)) :
    Expecting.step t (.item around) token = beginValue (.array [] :: around) t token := by
  cases token <;> first | rfl | exact absurd rfl h

/-- An array does not end where an item begins. -/
theorem ValueText.readFrom_item {t w : Text} {j : Json} (h : ValueText t j) (hw : w.IsJsonBlank)
    (around : List (Open Json)) :
    readFrom (.item around) (w ++ (t ++ rest))
      = readFrom (.value (.array [] :: around)) (w ++ (t ++ rest)) := by
  obtain ⟨c, u, rfl, hc, hne⟩ := h.exists_cons
  rw [readFrom_blank hw, readFrom_blank hw, List.cons_append, readFrom_eq, readFrom_eq (.value _),
    skipJsonBlanks_cons hc.not_isJsonBlank]
  split
  · rfl
  · next token rest' hs =>
    have hclose : token ≠ .closeArray := by
      rintro rfl
      obtain ⟨q, hq, ht, -⟩ := Token.exists_of_scan hs
      cases hq
      exact hne (List.cons.inj ht).1
    rw [Expecting.step_item hclose]
    rfl

/-- The first key of an object is read as any other. -/
theorem StringText.readFrom_firstKey {q k w : Text} (h : StringText q k) (hw : w.IsJsonBlank)
    (around : List (Open Json)) :
    readFrom (.firstKey around) (w ++ (q ++ rest))
      = readFrom (.key around []) (w ++ (q ++ rest)) := by
  rw [readFrom_mark hw (.string h) (fun _ => nofun), readFrom_mark hw (.string h) (fun _ => nofun)]
  rfl

/-! ### Parts of containers -/

/-- The reader goes through the text of a value, whatever is open around it and whatever comes
after it. -/
def ReadThrough (t : Text) (j : Json) : Prop :=
  ∀ (around : List (Open Json)) (rest : Text), j.Readable (nestingLimit - around.length) →
    BeginsOutside CodePoint.isNumberPart rest →
    readFrom (.value around) (t ++ rest) = readFrom (.done j around) rest

/-- A part of a container, with its white space, up to the mark that comes after it. -/
theorem ReadThrough.padded {p : Padded Json} (h : ReadThrough p.body p.value)
    (around : List (Open Json)) (hp : p.value.Readable (nestingLimit - around.length))
    {mark : CodePoint} {token : Token} (hm : TokenText [mark] token) (hn : ∀ n, token ≠ .number n)
    (hmark : mark.isNumberPart = false) :
    readFrom (.value around) (p.text ++ mark :: rest)
      = (Expecting.continueAfter p.value (mark :: rest) around token).bind
          fun state => readFrom state rest := by
  have hafter : BeginsOutside CodePoint.isNumberPart (p.after ++ mark :: rest) :=
    p.isJsonBlank_after.beginsOutside_append (beginsOutside_cons_iff.mpr hmark)
  rw [Padded.text, List.append_assoc, List.append_assoc, readFrom_blank p.isJsonBlank_before,
    h around _ hp hafter, ← List.singleton_append, readFrom_mark p.isJsonBlank_after hm hn]
  rfl

/-- **The items of an array** are read one after another, behind those that have been read. -/
theorem readFrom_items {parts : List (Padded Json)} (hne : parts ≠ []) {around : List (Open Json)}
    (hread : ∀ p ∈ parts, ReadThrough p.body p.value)
    (hroom : ∀ p ∈ parts, p.value.Readable (nestingLimit - (around.length + 1)))
    (items : List Json) :
    readFrom (.value (.array items :: around))
        (Text.join [CodePoint.ofChar ','] (parts.map Padded.text)
          ++ CodePoint.ofChar ']' :: rest)
      = readFrom (.done (.array (items.reverse ++ parts.map Padded.value)) around) rest := by
  induction parts generalizing items with
  | nil => exact absurd rfl hne
  | cons p parts ih =>
    rw [List.forall_mem_cons] at hread hroom
    rcases eq_or_ne parts [] with rfl | hparts
    · rw [List.map_singleton, Text.join_singleton,
        hread.1.padded (.array items :: around) hroom.1 .closeArray (fun _ => nofun) rfl]
      simp [Expecting.continueAfter, Except.bind, JsonLike.array]
    · rw [List.map_cons, Text.join_cons _ _ (by simpa using hparts), List.append_assoc,
        List.append_assoc, List.singleton_append,
        hread.1.padded (.array items :: around) hroom.1 .comma (fun _ => nofun) rfl]
      refine (ih hparts hread.2 hroom.2 (p.value :: items)).trans ?_
      rw [List.reverse_cons, List.append_assoc, List.map_cons, List.singleton_append]

/-- **The members of an object** are read one after another, behind those that have been read. -/
theorem readFrom_members {parts : List (Padded Text × Padded Json)} (hne : parts ≠ [])
    {around : List (Open Json)} (hkeys : ∀ p ∈ parts, StringText p.1.body p.1.value)
    (hread : ∀ p ∈ parts, ReadThrough p.2.body p.2.value)
    (hroom : ∀ p ∈ parts, p.2.value.Readable (nestingLimit - (around.length + 1)))
    (members : List (Text × Json)) :
    readFrom (.key around members)
        (Text.join [CodePoint.ofChar ','] (parts.map memberText)
          ++ CodePoint.ofChar '}' :: rest)
      = readFrom
          (.done (.object (members.reverse ++ parts.map fun p => (p.1.value, p.2.value))) around)
          rest := by
  -- a key and its colon lead to the state that expects the value
  have hkey : ∀ (p : Padded Text × Padded Json) (members : List (Text × Json)) (tail : Text),
      StringText p.1.body p.1.value → readFrom (.key around members) (memberText p ++ tail)
        = readFrom (.value (.object members p.1.value :: around)) (p.2.text ++ tail) := by
    intro p members tail hp
    rw [memberText, Padded.text, List.append_assoc, List.append_assoc, List.append_assoc,
      List.cons_append, readFrom_mark p.1.isJsonBlank_before (.string hp) (fun _ => nofun)]
    have hstep : ∀ t, Expecting.step t (.key around members) (.string p.1.value)
        = .ok (.colon around members p.1.value) := fun _ => rfl
    rw [hstep, ← List.singleton_append]
    exact readFrom_mark p.1.isJsonBlank_after .colon (fun _ => nofun) _
  induction parts generalizing members with
  | nil => exact absurd rfl hne
  | cons p parts ih =>
    rw [List.forall_mem_cons] at hkeys hread hroom
    rcases eq_or_ne parts [] with rfl | hparts
    · rw [List.map_singleton, Text.join_singleton, hkey p members _ hkeys.1,
        hread.1.padded (.object members p.1.value :: around) hroom.1 .closeObject
          (fun _ => nofun) rfl]
      simp [Expecting.continueAfter, Except.bind, JsonLike.object]
    · rw [List.map_cons, Text.join_cons _ _ (by simpa using hparts), List.append_assoc,
        List.append_assoc, List.singleton_append, hkey p members _ hkeys.1,
        hread.1.padded (.object members p.1.value :: around) hroom.1 .comma (fun _ => nofun) rfl]
      refine (ih hparts hkeys.2 hread.2 hroom.2 ((p.1.value, p.2.value) :: members)).trans ?_
      rw [List.reverse_cons, List.append_assoc, List.map_cons, List.singleton_append]

/-! ### Values -/

theorem enter_eq_ok {room : Nat} {around : List (Open Json)}
    (h : nestingLimit - around.length = room + 1) (inside : Expecting Json) :
    Expecting.enter around inside = .ok inside :=
  if_pos (by omega)

/-- **A value within the limits is read to its end**, and the reader goes on behind it. -/
theorem ValueText.readThrough {t : Text} {j : Json} (h : ValueText t j) : ReadThrough t j := by
  -- the token of a scalar completes it at once
  have scalar : ∀ {t : Text} {j : Json} {token : Token}, TokenText t token →
      (∀ rest around, Expecting.beginValue around rest token = .ok (.done j around)) →
      (∀ room, j.Readable room → token.WithinDigitLimit) → ReadThrough t j := by
    intro t j token ht hbegin hlimit around rest hj hr
    rw [readFrom_token ht (hlimit _ hj) (fun _ => hr), Expecting.step, hbegin]
    rfl
  induction h with
  | null => exact scalar .null (fun _ _ => rfl) fun _ _ => trivial
  | true => exact scalar .true (fun _ _ => rfl) fun _ _ => trivial
  | false => exact scalar .false (fun _ _ => rfl) fun _ _ => trivial
  | string h => exact scalar (.string h) (fun _ _ => rfl) fun _ _ => trivial
  | number h =>
    exact scalar (.number h) (fun _ _ => rfl) fun _ hj => hj.2 _ (List.mem_cons_self ..)
  | emptyArray hw =>
    intro around rest hj hr
    obtain ⟨room, hroom⟩ := hj.exists_room (Json.nesting_array_pos _)
    rw [List.cons_append, ← List.singleton_append,
      readFrom_token .openArray trivial (fun ⟨_, he⟩ => nomatch he), Expecting.step,
      Expecting.beginValue, enter_eq_ok hroom, List.append_assoc]
    exact readFrom_mark hw .closeArray (fun _ => nofun) _
  | @array parts hne items ih =>
    intro around rest hj hr
    obtain ⟨room, hroom⟩ := hj.exists_room (Json.nesting_array_pos _)
    have hparts : ∀ p ∈ parts, p.value.Readable (nestingLimit - (around.length + 1)) := by
      rw [hroom, Json.readable_array_iff, List.forall_mem_map] at hj
      rw [show nestingLimit - (around.length + 1) = room by omega]
      exact hj
    rw [List.cons_append, ← List.singleton_append,
      readFrom_token .openArray trivial (fun ⟨_, he⟩ => nomatch he), Expecting.step,
      Expecting.beginValue, enter_eq_ok hroom, List.append_assoc]
    refine Eq.trans ?_ (readFrom_items hne ih hparts [])
    obtain ⟨p, ps, rfl⟩ := List.exists_cons_of_ne_nil hne
    obtain ⟨u, hu⟩ := Text.exists_join_cons [CodePoint.ofChar ','] p.text (ps.map Padded.text)
    rw [Except.bind, List.map_cons, hu]
    simp only [Padded.text, List.append_assoc, List.singleton_append]
    exact (items p (List.mem_cons_self ..)).readFrom_item p.isJsonBlank_before around
  | emptyObject hw =>
    intro around rest hj hr
    obtain ⟨room, hroom⟩ := hj.exists_room (Json.nesting_object_pos _)
    rw [List.cons_append, ← List.singleton_append,
      readFrom_token .openObject trivial (fun ⟨_, he⟩ => nomatch he), Expecting.step,
      Expecting.beginValue, enter_eq_ok hroom, List.append_assoc]
    exact readFrom_mark hw .closeObject (fun _ => nofun) _
  | @object parts hne keys values ih =>
    intro around rest hj hr
    obtain ⟨room, hroom⟩ := hj.exists_room (Json.nesting_object_pos _)
    have hparts : ∀ p ∈ parts, p.2.value.Readable (nestingLimit - (around.length + 1)) := by
      rw [hroom, Json.readable_object_iff, List.forall_mem_map] at hj
      rw [show nestingLimit - (around.length + 1) = room by omega]
      exact hj
    rw [List.cons_append, ← List.singleton_append,
      readFrom_token .openObject trivial (fun ⟨_, he⟩ => nomatch he), Expecting.step,
      Expecting.beginValue, enter_eq_ok hroom, List.append_assoc]
    refine Eq.trans ?_ (readFrom_members hne keys ih hparts [])
    obtain ⟨p, ps, rfl⟩ := List.exists_cons_of_ne_nil hne
    obtain ⟨u, hu⟩ :=
      Text.exists_join_cons [CodePoint.ofChar ','] (memberText p) (ps.map memberText)
    rw [Except.bind, List.map_cons, hu]
    simp only [memberText, Padded.text, List.append_assoc, List.singleton_append]
    exact (keys p (List.mem_cons_self ..)).readFrom_firstKey p.1.isJsonBlank_before around

/-! ### Whole texts -/

theorem JsonText.head?_ne_byteOrderMark {t : Text} {j : Json} (h : JsonText t j) :
    t.head? ≠ some byteOrderMark := by
  obtain ⟨p, hp, rfl, -⟩ := h
  obtain ⟨c, u, hb, hc, -⟩ := hp.exists_cons
  rw [Padded.text, hb]
  cases hbefore : p.before with
  | nil =>
    intro he
    exact hc.ne_byteOrderMark (Option.some.inj he)
  | cons b w =>
    intro he
    have hblank := p.isJsonBlank_before b (by rw [hbefore]; exact List.mem_cons_self ..)
    rw [Option.some.inj he] at hblank
    exact absurd hblank (by decide)

/-- **A text within the limits gives the value that it derives.** -/
theorem JsonText.readText_eq_ok {t : Text} {j : Json} (h : JsonText t j)
    (hj : j.Readable nestingLimit) : readText t = .ok j := by
  rw [readText, readAs, if_neg h.head?_ne_byteOrderMark]
  obtain ⟨p, hp, rfl, rfl⟩ := h
  have hafter : BeginsOutside CodePoint.isNumberPart p.after := by
    simpa using p.isJsonBlank_after.beginsOutside_append (beginsOutside_nil _)
  have hend : readFrom (.done p.value []) p.after = .ok p.value := by
    rw [← List.append_nil p.after, readFrom_blank p.isJsonBlank_after, readFrom_eq]
    rfl
  rw [Padded.text, List.append_assoc, readFrom_blank p.isJsonBlank_before,
    hp.readThrough [] p.after hj hafter, hend]
  rfl

end JsonLayout
