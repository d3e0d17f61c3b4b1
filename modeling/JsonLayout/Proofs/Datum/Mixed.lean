import JsonLayout.Layout.Render
import JsonLayout.Proofs.Datum.ToValue

/-!
# Plain data that are partly converted

JSON values that stand in plain data are taken as they are, so it makes no difference to the
conversion which parts of some data have been replaced by their JSON values before, and none to what
is laid out.

## Main definitions

* `Datum.PartlyConverted`: some data with JSON values in place of some parts.

## Main results

* `Datum.toValue_of_partlyConverted`: the conversion of such data, be it that it fails.
* `Datum.partlyConverted_absorbed`: the same, and the text.
-/

namespace JsonLayout

namespace Datum

/-- **Data with JSON values in place of some parts**, each with the value that the part stands for.
A part may be the data as a whole, an item of a list or a tuple, or what a dict has under a key, at
any depth. -/
inductive PartlyConverted : Datum → Datum → Prop where
  | kept (d : Datum) : PartlyConverted d d
  | converted {d v : Datum} (h : d.toValue = .ok v) : PartlyConverted d v
  | list {items mixed : List Datum} (h : List.Forall₂ PartlyConverted items mixed) :
      PartlyConverted (.list items) (.list mixed)
  | tuple {items mixed : List Datum} (h : List.Forall₂ PartlyConverted items mixed) :
      PartlyConverted (.tuple items) (.tuple mixed)
  | dict {entries mixed : List (Datum × Datum)}
      (keys : List.Forall₂ (fun e m => e.1 = m.1) entries mixed)
      (values : List.Forall₂ (fun e m => PartlyConverted e.2 m.2) entries mixed) :
      PartlyConverted (.dict entries) (.dict mixed)

theorem StandsFor.isValue {d v : Datum} (h : StandsFor d v) : v.isValue = true := by
  cases h with
  | value h => exact h
  | _ => rfl

/-- What data were converted to stays when it is converted. -/
theorem toValue_of_toValue {d v : Datum} (h : d.toValue = .ok v) : v.toValue = .ok v :=
  toValue_eq_ok_iff.mpr (.value (toValue_eq_ok_iff.mp h).isValue)

theorem toMember_congr {e m : Datum × Datum} (hkey : e.1 = m.1)
    (hvalue : m.2.toValue = e.2.toValue) : toMember m = toMember e := by
  rw [toMember, toMember, hkey, hvalue]

/-- **The conversion** of partly converted data is that of the data. -/
theorem toValue_of_partlyConverted {d m : Datum} (h : PartlyConverted d m) :
    m.toValue = d.toValue := by
  induction d using induction_plainParts generalizing m with
  | parts d ih =>
    cases h with
    | kept => rfl
    | converted h => rw [h, toValue_of_toValue h]
    | list h | tuple h =>
      rw [plainParts, List.forall_mem_map] at ih
      simp only [toValue_list, toValue_tuple]
      rw [mapM_eq_of_forall₂]
      exact forall₂_imp_of_mem (fun d hd _ => ih d hd) h
    | dict keys values =>
      rw [plainParts, List.forall_mem_map] at ih
      rw [toValue_dict, toValue_dict, mapM_eq_of_forall₂]
      exact forall₂_imp_of_mem (fun e he _ h => toMember_congr h.1 (ih e he h.2))
        (forall₂_and_iff.mpr ⟨keys, values⟩)

/-- **Partial conversion is absorbed.**  Data with JSON values in place of some parts are converted
and laid out like the data, or fail like them; if there is a value, it has the shape of the data as
they were. -/
theorem partlyConverted_absorbed {d m : Datum} (h : PartlyConverted d m) :
    m.toValue = d.toValue ∧ (∀ v, m.toValue = .ok v ↔ StandsFor d v) ∧
      ∀ opts : Options, opts.format m = opts.format d := by
  have hvalue := toValue_of_partlyConverted h
  refine ⟨hvalue, fun v => ?_, fun opts => ?_⟩
  · rw [hvalue, toValue_eq_ok_iff]
  · rw [Options.format, Options.format, hvalue]

/-- The tuple in a list under a key, and what stands under another one, are converted before. -/
theorem partlyConverted_absorbed_nested :
    let d : Datum := .dict [(.str "a", .list [.int 1, .tuple [.bool true]]), (.str "b", .nothing)]
    let m : Datum := .dict [(.str "a", .list [.int 1, .array [.boolean true]]), (.str "b", .null)]
    PartlyConverted d m ∧ m.toValue = d.toValue ∧ (∀ v, m.toValue = .ok v ↔ StandsFor d v) ∧
      ∀ opts : Options, opts.format m = opts.format d := by
  have htuple : (Datum.tuple [.bool true]).toValue = .ok (.array [.boolean true]) := by
    decide +kernel
  have hlist : PartlyConverted (.list [.int 1, .tuple [.bool true]])
      (.list [.int 1, .array [.boolean true]]) :=
    .list (.cons (.kept _) (.cons (.converted htuple) .nil))
  have h : PartlyConverted
      (.dict [(.str "a", .list [.int 1, .tuple [.bool true]]), (.str "b", .nothing)])
      (.dict [(.str "a", .list [.int 1, .array [.boolean true]]), (.str "b", .null)]) :=
    .dict (.cons rfl (.cons rfl .nil)) (.cons hlist (.cons (.converted rfl) .nil))
  exact ⟨h, partlyConverted_absorbed h⟩

end Datum

end JsonLayout
