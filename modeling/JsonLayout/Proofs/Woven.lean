import JsonLayout.Proofs.Grammar
import JsonLayout.Proofs.Json
import Mathlib.Algebra.BigOperators.Group.List.Basic
import Mathlib.Algebra.Order.Ring.Nat
import Mathlib.Data.List.Forall2
import Mathlib.Tactic.Choose

/-!
# Texts with strings woven in

A JSON text, whether it was written or is being read, is a sequence of strings between quotes with
stretches between them that have neither quotes nor backslashes.  The backslashes of the whole text
are those of the bodies.  If no body has a quote in it, the text has one quote at each end of each
body and none anywhere else, so it can be cut into bodies in one way only.

## Main definitions

* `Text.IsBare`: a text without quotes and backslashes.
* `Woven`: a text with the given bodies in it.

## Main results

* `Woven.count_backslash`: the backslashes of the text.
* `Woven.unique`: the bodies of a text, if none has a quote in it.
* `ValueText.exists_woven`: the text of a value has the bodies of its strings in it.
-/

namespace JsonLayout

/-- A text without quotes and backslashes. -/
def Text.IsBare (t : Text) : Prop :=
  ∀ c ∈ t, c ≠ CodePoint.ofChar '"' ∧ c ≠ CodePoint.ofChar '\\'

instance : DecidablePred Text.IsBare :=
  fun _ => List.decidableBAll _ _

/-- A text that is made of bodies between quotes, in order, and of bare stretches around them. -/
inductive Woven : Text → List Text → Prop where
  | bare {t : Text} (h : t.IsBare) : Woven t []
  | quoted {t b u : Text} {bs : List Text} (ht : t.IsBare) (hu : Woven u bs) :
      Woven (t ++ CodePoint.ofChar '"' :: (b ++ CodePoint.ofChar '"' :: u)) (b :: bs)

/-! ### Bare texts -/

namespace Text

variable {s t : Text}

theorem isBare_nil : IsBare [] := List.forall_mem_nil _

theorem isBare_append_iff : IsBare (s ++ t) ↔ s.IsBare ∧ t.IsBare := List.forall_mem_append

theorem IsBare.append (hs : s.IsBare) (ht : t.IsBare) : IsBare (s ++ t) :=
  isBare_append_iff.mpr ⟨hs, ht⟩

theorem IsBare.quote_not_mem (h : t.IsBare) : CodePoint.ofChar '"' ∉ t :=
  fun hmem => (h _ hmem).1 rfl

theorem IsBare.backslash_not_mem (h : t.IsBare) : CodePoint.ofChar '\\' ∉ t :=
  fun hmem => (h _ hmem).2 rfl

/-- Characters of a class without quotes and backslashes. -/
theorem isBare_of_class {p : CodePoint → Bool} (h : ∀ c ∈ t, p c)
    (quote : p (CodePoint.ofChar '"') = false) (backslash : p (CodePoint.ofChar '\\') = false) :
    t.IsBare := by
  intro c hc
  constructor
  · exact CodePoint.ne_of_class (h c hc) quote
  · exact CodePoint.ne_of_class (h c hc) backslash

theorem IsJsonBlank.isBare (h : t.IsJsonBlank) : t.IsBare := isBare_of_class h rfl rfl

end Text

theorem NumberText.isBare {t : Text} {n : Number} (h : NumberText t n) : t.IsBare :=
  Text.isBare_of_class h.isNumeral rfl rfl

/-! ### Woven texts -/

namespace Woven

variable {t u : Text} {bs cs : List Text}

theorem append_left (ht : t.IsBare) (h : Woven u bs) : Woven (t ++ u) bs := by
  cases h with
  | bare hu => exact .bare (ht.append hu)
  | quoted hs hu =>
    rw [← List.append_assoc]
    exact .quoted (ht.append hs) hu

theorem append (ht : Woven t bs) (hu : Woven u cs) : Woven (t ++ u) (bs ++ cs) := by
  induction ht with
  | bare h => exact append_left h hu
  | quoted h _ ih =>
    rw [List.append_assoc, List.cons_append, List.append_assoc, List.cons_append,
      List.cons_append]
    exact .quoted h ih

theorem append_right (ht : Woven t bs) (hu : u.IsBare) : Woven (t ++ u) bs := by
  simpa using ht.append (.bare hu)

/-- One string. -/
theorem string (b : Text) : Woven (CodePoint.ofChar '"' :: (b ++ [CodePoint.ofChar '"'])) [b] :=
  .quoted (t := []) Text.isBare_nil (.bare Text.isBare_nil)

/-- **Parts with bare separators** have the bodies of all parts. -/
theorem join {α : Type} {separator : Text} (hs : separator.IsBare) {text : α → Text}
    {bodies : α → List Text} {as : List α} (h : ∀ a ∈ as, Woven (text a) (bodies a)) :
    Woven (Text.join separator (as.map text)) (as.flatMap bodies) := by
  induction as with
  | nil => exact .bare Text.isBare_nil
  | cons a as ih =>
    rw [List.forall_mem_cons] at h
    rcases eq_or_ne as [] with rfl | has
    · rw [List.map_singleton, Text.join_singleton, List.flatMap_singleton]
      exact h.1
    · rw [List.map_cons, Text.join_cons _ _ (by simpa using has), List.flatMap_cons]
      exact h.1.append ((ih h.2).append_left hs)

/-- **The backslashes of a text** are those of its bodies. -/
theorem count_backslash (h : Woven t bs) :
    t.count (CodePoint.ofChar '\\') = (bs.map (List.count (CodePoint.ofChar '\\'))).sum := by
  induction h with
  | bare h => exact List.count_eq_zero.mpr h.backslash_not_mem
  | quoted h _ ih =>
    have hquote : ∀ t : Text, List.count (CodePoint.ofChar '\\') (CodePoint.ofChar '"' :: t)
        = List.count (CodePoint.ofChar '\\') t := fun t => List.count_cons_of_ne (by decide)
    rw [List.count_append, hquote, List.count_append, hquote, ih, List.map_cons, List.sum_cons,
      List.count_eq_zero.mpr h.backslash_not_mem, Nat.zero_add]

/-- Two cuts of one text at its first quote are the same. -/
theorem cut_unique {s s' u u' : Text} (hs : CodePoint.ofChar '"' ∉ s)
    (hs' : CodePoint.ofChar '"' ∉ s')
    (h : s ++ CodePoint.ofChar '"' :: u = s' ++ CodePoint.ofChar '"' :: u') : s = s' ∧ u = u' := by
  induction s generalizing s' with
  | nil =>
    cases s' with
    | nil => exact ⟨rfl, (List.cons.inj h).2⟩
    | cons c s' => exact absurd (List.mem_cons.mpr (.inl (List.cons.inj h).1)) hs'
  | cons c s ih =>
    cases s' with
    | nil => exact absurd (List.mem_cons.mpr (.inl (List.cons.inj h).1.symm)) hs
    | cons c' s' =>
      obtain ⟨rfl, htail⟩ := List.cons.inj h
      obtain ⟨rfl, rfl⟩ := ih (fun hm => hs (List.mem_cons_of_mem _ hm))
        (fun hm => hs' (List.mem_cons_of_mem _ hm)) htail
      exact ⟨rfl, rfl⟩

/-- **The bodies of a text** are determined by it, if none has a quote in it. -/
theorem unique (h : Woven t bs) (h' : Woven t cs) (hbs : ∀ b ∈ bs, CodePoint.ofChar '"' ∉ b)
    (hcs : ∀ c ∈ cs, CodePoint.ofChar '"' ∉ c) : bs = cs := by
  induction h generalizing cs with
  | bare h =>
    cases h' with
    | bare => rfl
    | quoted => exact absurd (by simp) h.quote_not_mem
  | @quoted s b u bs hs hu ih =>
    rw [List.forall_mem_cons] at hbs
    generalize ht : s ++ CodePoint.ofChar '"' :: (b ++ CodePoint.ofChar '"' :: u) = t at h'
    cases h' with
    | bare h' => exact absurd (by rw [← ht]; simp) h'.quote_not_mem
    | @quoted s' c u' cs hs' hu' =>
      rw [List.forall_mem_cons] at hcs
      obtain ⟨-, hrest⟩ := cut_unique hs.quote_not_mem hs'.quote_not_mem ht
      obtain ⟨rfl, rfl⟩ := cut_unique hbs.1 hcs.1 hrest
      rw [ih hu' hbs.2 hcs.2]

end Woven

/-! ### Values -/

/-- A body of a string, and the text it stands for. -/
def BodyText (b s : Text) : Prop := ∃ us, UnitsText b us ∧ StringUnit.joined us = s

theorem StringText.exists_woven {t s : Text} (h : StringText t s) :
    ∃ b, Woven t [b] ∧ BodyText b s := by
  obtain ⟨hb⟩ := h
  exact ⟨_, .string _, _, hb, rfl⟩

theorem Padded.woven {α : Type} (p : Padded α) {bs : List Text} (h : Woven p.body bs) :
    Woven p.text bs :=
  (Woven.append_left p.isJsonBlank_before.isBare h).append_right p.isJsonBlank_after.isBare

theorem forall₂_flatMap {α β γ : Type} {R : β → γ → Prop} {f : α → List β} {g : α → List γ}
    {as : List α} (h : ∀ a ∈ as, List.Forall₂ R (f a) (g a)) :
    List.Forall₂ R (as.flatMap f) (as.flatMap g) := by
  induction as with
  | nil => exact .nil
  | cons a as ih =>
    rw [List.forall_mem_cons] at h
    rw [List.flatMap_cons, List.flatMap_cons]
    exact List.rel_append h.1 (ih h.2)

/-- Parts between two brackets, with commas between them. -/
theorem woven_container {α : Type} {text : α → Text} {strings : α → List Text} {as : List α}
    (h : ∀ a ∈ as, ∃ bs, Woven (text a) bs ∧ List.Forall₂ BodyText bs (strings a))
    {first last : CodePoint} (hfirst : Text.IsBare [first]) (hlast : Text.IsBare [last]) :
    ∃ bs, Woven (first :: (Text.join [CodePoint.ofChar ','] (as.map text) ++ [last])) bs ∧
      List.Forall₂ BodyText bs (as.flatMap strings) := by
  choose! bodies hwoven hbodies using h
  have hcomma : Text.IsBare [CodePoint.ofChar ','] := by decide
  exact ⟨as.flatMap bodies,
    .append_left hfirst ((Woven.join hcomma hwoven).append_right hlast), forall₂_flatMap hbodies⟩

/-- **The text of a value** has the bodies of its strings in it, in order. -/
theorem ValueText.exists_woven {t : Text} {j : Json} (h : ValueText t j) :
    ∃ bs, Woven t bs ∧ List.Forall₂ BodyText bs j.strings := by
  induction h with
  | null | true | false => exact ⟨[], .bare (by decide), .nil⟩
  | number h => exact ⟨[], .bare h.isBare, .nil⟩
  | string h =>
    obtain ⟨b, hwoven, hb⟩ := h.exists_woven
    exact ⟨[b], hwoven, .cons hb .nil⟩
  | emptyArray hw | emptyObject hw =>
    refine ⟨[], .bare (.append (s := [_]) ?_ (.append hw.isBare ?_)), .nil⟩
    · decide
    · decide
  | @array parts _ _ ih =>
    rw [Json.strings_array, List.flatMap_map]
    refine woven_container ?_ (by decide) (by decide)
    intro p hp
    obtain ⟨bs, hwoven, hbs⟩ := ih p hp
    exact ⟨bs, p.woven hwoven, hbs⟩
  | @object parts _ keys _ ih =>
    rw [Json.strings_object, List.flatMap_map]
    refine woven_container ?_ (by decide) (by decide)
    intro p hp
    obtain ⟨b, hkey, hb⟩ := (keys p hp).exists_woven
    obtain ⟨bs, hwoven, hbs⟩ := ih p hp
    refine ⟨b :: bs, ?_, .cons hb hbs⟩
    have hcolon : Text.IsBare [CodePoint.ofChar ':'] := by decide
    exact (p.1.woven hkey).append (.append_left hcolon (p.2.woven hwoven))

/-- A whole text has the bodies of the strings of its value in it. -/
theorem JsonText.exists_woven {t : Text} {j : Json} (h : JsonText t j) :
    ∃ bs, Woven t bs ∧ List.Forall₂ BodyText bs j.strings := by
  obtain ⟨p, hp, rfl, rfl⟩ := h
  obtain ⟨bs, hwoven, hbs⟩ := hp.exists_woven
  exact ⟨bs, p.woven hwoven, hbs⟩

end JsonLayout
