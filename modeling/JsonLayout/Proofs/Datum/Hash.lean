import JsonLayout.Datum.Lookup
import JsonLayout.Proofs.Alike
import JsonLayout.Proofs.Number.Equality

/-!
# Equal values have the same hash

A key is compared with those of the same hash alone, so equal values must have the same.  Where an
integer is equal to a double this rests on arithmetic: a double counts units of `2 ^ (-1074)`, and
`2 ^ 1074` times `2 ^ 24` leaves the remainder one.

## Main results

* `Number.hash?_eq_of_alike`: numbers that are alike have the same hash.
* `Json.hashForm_eq_of_alike`: so have values that are alike.
* `Json.not_comparesBeyond_of_checkKey`: a key is compared with every value that it is equal to.
-/

namespace JsonLayout

/-! ### Numbers -/

theorem signedHash_zero (negative : Bool) : signedHash negative 0 = 0 := by
  cases negative <;> rfl

/-- Units of one leave the remainder of the integer that they make up. -/
theorem natCast_units_mod (n : Nat) :
    n * Magnitude.one * 2 ^ 24 % hashModulus = n % hashModulus := by
  have hone : Magnitude.one * 2 ^ 24 % hashModulus = 1 := by decide +kernel
  rw [Nat.mul_assoc, Nat.mul_mod, hone, Nat.mul_one, Nat.mod_mod]

namespace Double

variable {x y : Double}

/-- A double has the hash of the integer that it is equal to. -/
theorem hash?_of_toInt? {n : Int} (h : x.toInt? = some n) : x.hash? = (Number.int n).hash? := by
  cases x with
  | nan | infinite => cases h
  | finite negative m =>
    obtain ⟨hunits, hsign⟩ := toInt?_finite_eq_some_iff.mp h
    rw [hash?, Number.hash?, hunits, natCast_units_mod]
    rcases eq_or_ne n 0 with rfl | hn
    · rw [Int.natAbs_zero, Nat.zero_mod, signedHash_zero, signedHash_zero]
    · have hnegative : negative = decide (n < 0) := by
        rw [Bool.eq_iff_iff, decide_eq_true_iff]
        exact hsign hn
      rw [hnegative]

theorem hash?_of_same (h : x.same y = true) : x.hash? = y.hash? := by
  match x, y, h with
  | .infinite s, .infinite t, h =>
    obtain rfl : s = t := beq_iff_eq.mp h
    rfl
  | .finite s m, .finite t n, h =>
    rw [same, Bool.and_eq_true, Bool.or_eq_true, beq_iff_eq, beq_iff_eq, beq_iff_eq] at h
    obtain ⟨hindex, hsign⟩ := h
    have hunits : m.units = n.units := congrArg Magnitude.unitsAt hindex
    rw [hash?, hash?, hunits]
    rcases hsign with rfl | hzero
    · rfl
    · -- the two zeros have one hash
      have hnone : n.units = 0 := by
        rw [← hunits]
        exact Magnitude.units_eq_zero_iff.mpr hzero
      rw [hnone, Nat.zero_mul, Nat.zero_mod, signedHash_zero, signedHash_zero]

end Double

namespace Number

variable {m n : Number}

theorem hash?_of_same (h : m.same n = true) : m.hash? = n.hash? := by
  match m, n, h with
  | .int m, .int n, h =>
    obtain rfl : m = n := beq_iff_eq.mp h
    rfl
  | .int m, .double x, h => exact (Double.hash?_of_toInt? (beq_iff_eq.mp h)).symm
  | .double x, .int n, h => exact Double.hash?_of_toInt? (beq_iff_eq.mp h)
  | .double x, .double y, h => exact Double.hash?_of_same h

/-- **Numbers that are alike** have the same hash. -/
theorem hash?_eq_of_alike (h : m.Alike n) : m.hash? = n.hash? := by
  rcases h with hsame | ⟨rfl, rfl⟩
  · exact hash?_of_same hsame
  · rfl

theorem hashForm_toDatum (n : Number) : n.toDatum.hashForm = Datum.numberForm n := by
  cases n <;> rfl

end Number

/-! ### Values -/

theorem map_eq_map_of_forall₂ {α β : Type} {R : α → α → Prop} {f : α → β} {as bs : List α}
    (h : ∀ a ∈ as, ∀ b, R a b → f a = f b) (hR : List.Forall₂ R as bs) : as.map f = bs.map f := by
  rw [← List.forall₂_eq_eq_eq, List.forall₂_map_left_iff, List.forall₂_map_right_iff]
  exact forall₂_imp_of_mem h hR

theorem Datum.itemForms_eq_map (ds : List Datum) : itemForms ds = ds.map hashForm := by
  induction ds with
  | nil => rfl
  | cons d ds ih => rw [itemForms, ih, List.map_cons]

theorem Datum.memberForms_eq_map (ms : List (Text × Datum)) :
    memberForms ms = ms.map fun m => .tuple [textForm m.1, m.2.hashForm] := by
  induction ms with
  | nil => rfl
  | cons m ms ih => rw [memberForms, ih, List.map_cons]

namespace Json

variable {j k : Json}

theorem hashForm_number (n : Number) :
    (number n).toDatum.hashForm = .tuple [Datum.numberForm n] := by
  rw [toDatum, Datum.hashForm, Number.hashForm_toDatum]

theorem hashForm_array (items : List Json) :
    (array items).toDatum.hashForm = .tuple [.tuple (items.map fun j => j.toDatum.hashForm)] := by
  rw [toDatum, Datum.hashForm, itemsToData_eq_map, Datum.itemForms_eq_map, List.map_map]
  rfl

theorem hashForm_object (members : List (Text × Json)) : (object members).toDatum.hashForm
    = .tuple [.tuple (members.map fun m => .tuple [Datum.textForm m.1, m.2.toDatum.hashForm])] := by
  rw [toDatum, Datum.hashForm, membersToData_eq_map, Datum.memberForms_eq_map, List.map_map]
  rfl

/-- **Values that are alike** have the same hash. -/
theorem hashForm_eq_of_alike (h : j.Alike k) : j.toDatum.hashForm = k.toDatum.hashForm := by
  induction j using Json.induction generalizing k with
  | null | bool | string =>
    cases h
    rfl
  | number m =>
    cases h with
    | @number _ n hn =>
      rw [hashForm_number, hashForm_number, Datum.numberForm, Datum.numberForm,
        Number.hash?_eq_of_alike hn]
  | array items ih =>
    cases h with
    | @array _ items' hitems =>
      rw [hashForm_array, hashForm_array, map_eq_map_of_forall₂ (fun j hj k => ih j hj) hitems]
  | object members ih =>
    cases h with
    | @object _ members' hkeys hvalues =>
      have hforms : (members.map Prod.snd).map (fun j => j.toDatum.hashForm)
          = (members'.map Prod.snd).map fun j => j.toDatum.hashForm := by
        refine map_eq_map_of_forall₂ ?_ hvalues
        rw [List.forall_mem_map]
        exact fun m hm k => ih m hm
      -- the members are the keys with the values, one by one
      have hpairs (ms : List (Text × Json)) :
          (ms.map fun m => Datum.tuple [Datum.textForm m.1, m.2.toDatum.hashForm])
            = List.zipWith (fun k form => .tuple [Datum.textForm k, form])
              (ms.map Prod.fst) ((ms.map Prod.snd).map fun j => j.toDatum.hashForm) := by
        rw [List.map_map, List.zipWith_map, List.zipWith_self]
        rfl
      rw [hashForm_object, hashForm_object, hpairs, hpairs, hkeys, hforms]

end Json

/-! ### Keys

Hashes are compared as data are, so one with `NaN` in it is not even the same as itself. -/

theorem Datum.int_same_self (n : Int) : (int n).same (.int n) = true := by
  simp only [same, number?, Number.same, beq_self_eq_true]

theorem Datum.tuple_same_self {ds : List Datum} (h : ∀ d ∈ ds, d.same d = true) :
    (tuple ds).same (.tuple ds) = true := by
  rw [same, itemsSame_eq_true_iff, List.forall₂_same]
  exact h

theorem Datum.textForm_same_self (s : Text) : (textForm s).same (textForm s) = true := by
  rw [textForm]
  split
  · exact int_same_self 0
  · rw [same, beq_self_eq_true]

theorem Number.numberForm_same_self (n : Number) (hn : n ≠ .double .nan) :
    (Datum.numberForm n).same (Datum.numberForm n) = true := by
  have hhash : ∃ h, n.hash? = some h := by
    cases n with
    | int => exact ⟨_, rfl⟩
    | double x =>
      cases x with
      | nan => exact absurd rfl hn
      | infinite | finite => exact ⟨_, rfl⟩
  obtain ⟨h, hh⟩ := hhash
  rw [Datum.numberForm, hh]
  exact Datum.int_same_self h

namespace Json

variable {j k : Json}

theorem hashForm_same_self (h : ∀ n ∈ j.numbers, n ≠ .double .nan) :
    j.toDatum.hashForm.same j.toDatum.hashForm = true := by
  induction j using Json.induction with
  | null => exact Datum.tuple_same_self (List.forall_mem_nil _)
  | bool b => exact Datum.tuple_same_self (List.forall_mem_singleton.mpr (Datum.int_same_self _))
  | string s =>
    exact Datum.tuple_same_self (List.forall_mem_singleton.mpr (Datum.textForm_same_self s))
  | number n =>
    rw [hashForm_number]
    refine Datum.tuple_same_self (List.forall_mem_singleton.mpr ?_)
    exact n.numberForm_same_self (h n List.mem_cons_self)
  | array items ih =>
    rw [forall_numbers_array] at h
    rw [hashForm_array]
    refine Datum.tuple_same_self (List.forall_mem_singleton.mpr (Datum.tuple_same_self ?_))
    rw [List.forall_mem_map]
    exact fun j hj => ih j hj (h j hj)
  | object members ih =>
    rw [forall_numbers_object] at h
    rw [hashForm_object]
    refine Datum.tuple_same_self (List.forall_mem_singleton.mpr (Datum.tuple_same_self ?_))
    rw [List.forall_mem_map]
    intro m hm
    refine Datum.tuple_same_self ?_
    rw [List.forall_mem_cons, List.forall_mem_singleton]
    exact ⟨Datum.textForm_same_self m.1, ih m hm (h m hm)⟩

/-- **A key is compared** with every value that it is equal to, or there is no key. -/
theorem not_comparesBeyond_of_checkKey {keys : List Datum} (h : j.toDatum.checkKey keys = .ok ())
    (hj : ∀ n ∈ j.numbers, n ≠ .double .nan) (hk : k.toDatum ∈ keys)
    (hsame : j.toDatum.same k.toDatum = true) :
    j.toDatum.comparesBeyond Datum.stepLimit k.toDatum = false := by
  by_contra hbeyond
  rw [Bool.not_eq_false] at hbeyond
  have hhash : j.toDatum.hashForm.same k.toDatum.hashForm = true := by
    rw [← hashForm_eq_of_alike ((alike_iff_same hj).mpr hsame)]
    exact hashForm_same_self hj
  have hany : (keys.any fun e => j.toDatum.hashForm.same e.hashForm &&
      j.toDatum.comparesBeyond Datum.stepLimit e) = true := by
    rw [List.any_eq_true]
    exact ⟨k.toDatum, hk, by rw [hhash, hbeyond, Bool.and_self]⟩
  rw [Datum.checkKey, if_pos hany] at h
  split at h <;> cases h

end Json

end JsonLayout
