import JsonLayout.Proofs.Number.Equality
import JsonLayout.Proofs.RoundTrip

/-!
# Escaped text as a canonical form

A value as it is written is a normal form: values that are equal are written as the same value.  An
escaped text gives back what it was written for, so the texts of two values are the same if and only
if the values are equal.

## Main results

* `Json.asWritten_eq_iff`: values are written as the same value if and only if they are equal.
* `format_eq_iff_same`: so it is with their escaped texts.
-/

namespace JsonLayout

/-! ### Values -/

theorem itemsSame_map_iff {β : Type} {f : Json → Datum} {g : Json → β} {items items' : List Json}
    (h : ∀ j ∈ items, ∀ k ∈ items', (g j = g k ↔ (f j).same (f k) = true)) :
    items.map g = items'.map g ↔ Datum.itemsSame (items.map f) (items'.map f) = true := by
  induction items generalizing items' with
  | nil => cases items' <;> simp [Datum.itemsSame]
  | cons j items ih =>
    cases items' with
    | nil => simp [Datum.itemsSame]
    | cons k items' =>
      have hhead := h j List.mem_cons_self k List.mem_cons_self
      have htail := ih fun j hj k hk =>
        h j (List.mem_cons_of_mem _ hj) k (List.mem_cons_of_mem _ hk)
      rw [List.map_cons, List.map_cons, List.map_cons, List.map_cons, Datum.itemsSame,
        Bool.and_eq_true, List.cons.injEq, hhead, htail]

theorem membersSame_map_iff {β : Type} {f : Json → Datum} {g : Json → β}
    {members members' : List (Text × Json)}
    (h : ∀ m ∈ members, ∀ m' ∈ members', (g m.2 = g m'.2 ↔ (f m.2).same (f m'.2) = true)) :
    (members.map fun m => (m.1, g m.2)) = (members'.map fun m => (m.1, g m.2)) ↔
      Datum.membersSame (members.map fun m => (m.1, f m.2)) (members'.map fun m => (m.1, f m.2))
        = true := by
  induction members generalizing members' with
  | nil => cases members' <;> simp [Datum.membersSame]
  | cons m members ih =>
    cases members' with
    | nil => simp [Datum.membersSame]
    | cons m' members' =>
      have hhead := h m List.mem_cons_self m' List.mem_cons_self
      have htail := ih fun j hj k hk =>
        h j (List.mem_cons_of_mem _ hj) k (List.mem_cons_of_mem _ hk)
      rw [List.map_cons, List.map_cons, List.map_cons, List.map_cons, Datum.membersSame,
        Bool.and_eq_true, Bool.and_eq_true, beq_iff_eq, List.cons.injEq, Prod.mk.injEq, hhead,
        htail]

/-- **Equal values** are written as the same value, and others are not. -/
theorem Json.asWritten_eq_iff {j k : Json} (hj : ∀ n ∈ j.numbers, n.IsPlain)
    (hk : ∀ n ∈ k.numbers, n.IsPlain) :
    j.asWritten = k.asWritten ↔ j.toDatum.same k.toDatum = true := by
  induction j using Json.induction generalizing k with
  | null => cases k <;> simp [asWritten, toDatum, Datum.same, Datum.number?]
  | bool b => cases k <;> simp [asWritten, toDatum, Datum.same, Datum.number?]
  | string s => cases k <;> simp [asWritten, toDatum, Datum.same, Datum.number?]
  | number n =>
    cases k with
    | number m =>
      rw [asWritten, asWritten, toDatum, toDatum, Datum.same, Number.same_toDatum, number.injEq]
      exact Number.asWritten_eq_iff (List.forall_mem_singleton.mp hj)
        (List.forall_mem_singleton.mp hk)
    | _ => simp [asWritten, toDatum, Datum.same, Datum.number?]
  | array items ih =>
    cases k with
    | array items' =>
      rw [forall_numbers_array] at hj hk
      rw [asWritten_array, asWritten_array, toDatum, toDatum, itemsToData_eq_map,
        itemsToData_eq_map, Datum.same, array.injEq]
      exact itemsSame_map_iff fun j hmem k hmem' => ih j hmem (hj j hmem) (hk k hmem')
    | _ => simp [asWritten, toDatum, Datum.same, Datum.number?]
  | object members ih =>
    cases k with
    | object members' =>
      rw [forall_numbers_object] at hj hk
      rw [asWritten_object, asWritten_object, toDatum, toDatum, membersToData_eq_map,
        membersToData_eq_map, Datum.same, object.injEq]
      exact membersSame_map_iff fun m hmem m' hmem' => ih m hmem (hj m hmem) (hk m' hmem')
    | _ => simp [asWritten, toDatum, Datum.same, Datum.number?]

/-! ### Texts -/

/-- Values that are written as the same value have the same layout. -/
theorem format_congr {opts : Options} {j k : Json} (h : j.asWritten = k.asWritten) {t u : Text}
    (hj : opts.format j.toDatum = .ok t) (hk : opts.format k.toDatum = .ok u) : t = u := by
  have hj' := format_asWritten hj
  rw [h, format_asWritten hk] at hj'
  exact (Except.ok.inj hj').symm

/-- **Escaped text is a canonical form.**  Values whose doubles are finite and below `10 ^ 21` have
the same escaped text if and only if they are equal.  They have texts if the spaces of their
innermost levels fit in memory. -/
theorem format_eq_iff_same (opts : Options) (j k : Json) (hescape : opts.escapeStrings = true)
    (hj : ∀ n ∈ j.numbers, n.IsPlain) (hk : ∀ n ∈ k.numbers, n.IsPlain)
    (hnestj : j.nesting ≤ 900) (hnestk : k.nesting ≤ 900) :
    ((((j.nesting * opts.indentWidth : Nat) : Int) < Options.memoryLimit ∧
        ((k.nesting * opts.indentWidth : Nat) : Int) < Options.memoryLimit) ∧
      ∃ t u, opts.format j.toDatum = .ok t ∧ opts.format k.toDatum = .ok u ∧
        (t = u ↔ j.toDatum.same k.toDatum = true)) ∨
    (Options.memoryLimit ≤ ((j.nesting * opts.indentWidth : Nat) : Int) ∧
      (opts.format j.toDatum = .error .indentOverflow ∨
        opts.format j.toDatum = .error .outOfMemory)) ∨
    (Options.memoryLimit ≤ ((k.nesting * opts.indentWidth : Nat) : Int) ∧
      (opts.format k.toDatum = .error .indentOverflow ∨
        opts.format k.toDatum = .error .outOfMemory)) := by
  have hwritable : ∀ {j : Json}, (∀ n ∈ j.numbers, n.IsPlain) → j.Writable opts :=
    fun h n hn => (h n hn).writable opts
  have hread : ∀ {j : Json} {t : Text}, j.nesting ≤ 900 → opts.format j.toDatum = .ok t →
      readText t = .ok j.asWritten := fun hnest h =>
    readText_of_format (fun _ _ => Options.spells_of_escapeStrings hescape)
      (hnest.trans (by decide)) h
  rcases format_of_writable (hwritable hj) with ⟨hwidthj, t, ht⟩ | hwide
  · rcases format_of_writable (hwritable hk) with ⟨hwidthk, u, hu⟩ | hwide
    · refine .inl ⟨⟨hwidthj, hwidthk⟩, t, u, ht, hu, ?_⟩
      rw [← Json.asWritten_eq_iff hj hk]
      constructor
      · -- the same text is read as the same value
        rintro rfl
        exact Except.ok.inj ((hread hnestj ht).symm.trans (hread hnestk hu))
      · exact fun h => format_congr h ht hu
    · exact .inr (.inr hwide)
  · exact .inr (.inl hwide)

/-- A negative zero and a whole double against integers, beside a repeated key. -/
theorem format_eq_iff_same_negative_zero :
    ∃ t u, (⟨1, true, false⟩ : Options).format (Json.object
        [("a", .number (.double (.ofDecimal true ⟨0, 0⟩))), ("a", .array [.string "\n"]),
          ("b", .number (.double (.ofDecimal false ⟨5, 3⟩)))]).toDatum = .ok t ∧
      (⟨1, true, false⟩ : Options).format (Json.object
        [("a", .number (.int 0)), ("a", .array [.string "\n"]),
          ("b", .number (.int 5000))]).toDatum = .ok u ∧
      (t = u ↔ (Json.object
        [("a", .number (.double (.ofDecimal true ⟨0, 0⟩))), ("a", .array [.string "\n"]),
          ("b", .number (.double (.ofDecimal false ⟨5, 3⟩)))]).toDatum.same (Json.object
        [("a", .number (.int 0)), ("a", .array [.string "\n"]),
          ("b", .number (.int 5000))]).toDatum = true) := by
  refine ((format_eq_iff_same _ _ _ rfl ?_ ?_ ?_ ?_).resolve_right ?_).2
  · decide +kernel
  · decide +kernel
  · decide +kernel
  · decide +kernel
  · decide +kernel

/-- Two empty arrays are equal, but a level may be too wide for either to have a text. -/
theorem not_format_eq_iff_same_of_wide_indent :
    ¬ ∀ (opts : Options) (j k : Json), opts.escapeStrings = true →
      (∀ n ∈ j.numbers, n.IsPlain) → (∀ n ∈ k.numbers, n.IsPlain) →
      j.nesting ≤ 900 → k.nesting ≤ 900 →
      ((∃ t, opts.format j.toDatum = .ok t ∧ opts.format k.toDatum = .ok t) ↔
        j.toDatum.same k.toDatum = true) := by
  intro h
  have hempty := h ⟨2 ^ 63, true, false⟩ (.array []) (.array []) rfl (List.forall_mem_nil _)
    (List.forall_mem_nil _) (by decide) (by decide)
  obtain ⟨t, hformat, -⟩ := hempty.mpr (by decide +kernel)
  have herror : (⟨2 ^ 63, true, false⟩ : Options).format (Json.array []).toDatum
      = .error .indentOverflow := by decide +kernel
  rw [herror] at hformat
  cases hformat

end JsonLayout
