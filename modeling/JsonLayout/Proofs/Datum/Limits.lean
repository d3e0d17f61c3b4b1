import JsonLayout.Datum.Lookup
import JsonLayout.Proofs.Json

/-!
# How deep values may be compared and hashed

A comparison goes into the parts of both values as long as they agree, and takes up to five nested
steps for each level.  To be hashed, a value takes two.  So values of a moderate nesting are neither
too deep to be compared, whatever they are compared with, nor to be members of a set.

## Main results

* `Json.lt_of_comparesBeyond`, `Json.of_hashFault?`: what is too deep is nested a lot.
* `Json.equal?_cases`: a comparison has an answer, unless the values are nested too deeply.
* `Json.set?_cases`: so does a set.
-/

namespace JsonLayout

namespace Datum

variable {room : Nat} {fault : DataError}

/-! ### Parts -/

theorem exists_of_itemsBeyond {xs ys : List Datum} (h : itemsBeyond room xs ys = true) :
    ∃ x ∈ xs, ∃ y, x.comparesBeyond room y = true := by
  induction xs generalizing ys with
  | nil => simp [itemsBeyond] at h
  | cons x xs ih =>
    cases ys with
    | nil => simp [itemsBeyond] at h
    | cons y ys =>
      rw [itemsBeyond, Bool.or_eq_true, Bool.and_eq_true] at h
      rcases h with hx | ⟨-, hrest⟩
      · exact ⟨x, List.mem_cons_self, y, hx⟩
      · obtain ⟨x', hx', y', hbeyond⟩ := ih hrest
        exact ⟨x', List.mem_cons_of_mem x hx', y', hbeyond⟩

theorem exists_of_membersBeyond {ms ns : List (Text × Datum)}
    (h : membersBeyond room ms ns = true) :
    ∃ m ∈ ms, ∃ y, m.2.comparesBeyond room y = true := by
  induction ms generalizing ns with
  | nil => simp [membersBeyond] at h
  | cons m ms ih =>
    cases ns with
    | nil => simp [membersBeyond] at h
    | cons n ns =>
      rw [membersBeyond, Bool.and_eq_true, Bool.or_eq_true, Bool.and_eq_true] at h
      rcases h with ⟨-, hm | ⟨-, hrest⟩⟩
      · exact ⟨m, List.mem_cons_self, n.2, hm⟩
      · obtain ⟨m', hm', y, hbeyond⟩ := ih hrest
        exact ⟨m', List.mem_cons_of_mem m hm', y, hbeyond⟩

theorem exists_of_itemsHashFault? {xs : List Datum} (h : itemsHashFault? room xs = some fault) :
    ∃ x ∈ xs, x.hashFault? room = some fault := by
  induction xs with
  | nil => cases h
  | cons x xs ih =>
    rw [itemsHashFault?] at h
    split at h
    · next cause hx =>
      cases h
      exact ⟨x, List.mem_cons_self, hx⟩
    · obtain ⟨x', hx', hfault⟩ := ih h
      exact ⟨x', List.mem_cons_of_mem x hx', hfault⟩

theorem exists_of_membersHashFault? {ms : List (Text × Datum)}
    (h : membersHashFault? room ms = some fault) :
    ∃ m ∈ ms, m.2.hashFault? room = some fault := by
  induction ms with
  | nil => cases h
  | cons m ms ih =>
    rw [membersHashFault?] at h
    split at h
    · next cause hm =>
      cases h
      exact ⟨m, List.mem_cons_self, hm⟩
    · obtain ⟨m', hm', hfault⟩ := ih h
      exact ⟨m', List.mem_cons_of_mem m hm', hfault⟩

/-- Where there is no room for two steps, that is the fault. -/
theorem of_tooDeep {n : Nat} {rest : Option DataError}
    (h : (if room < 2 then some .hashedTooDeep else rest) = some fault)
    (hrest : rest = some fault → fault = .hashedTooDeep ∧ room < 2 * n + 2) :
    fault = .hashedTooDeep ∧ room < 2 * n + 2 := by
  split at h
  · cases h
    exact ⟨rfl, by omega⟩
  · exact hrest h

end Datum

namespace Json

variable {j k : Json} {room : Nat} {e : Datum} {fault : DataError}

/-! ### Levels -/

theorem nesting_lt_of_mem_array {items : List Json} (h : j ∈ items) :
    j.nesting < (array items).nesting := by
  obtain ⟨n, hn⟩ := Nat.exists_eq_add_one.mpr (nesting_array_pos items)
  rw [hn]
  exact Nat.lt_succ_of_le (nesting_array_le_iff.mp (Nat.le_of_eq hn) j h)

theorem nesting_lt_of_mem_object {members : List (Text × Json)} {m : Text × Json}
    (h : m ∈ members) : m.2.nesting < (object members).nesting := by
  obtain ⟨n, hn⟩ := Nat.exists_eq_add_one.mpr (nesting_object_pos members)
  rw [hn]
  exact Nat.lt_succ_of_le (nesting_object_le_iff.mp (Nat.le_of_eq hn) m h)

/-- **A comparison that goes too deep** is one of a value with many levels. -/
theorem lt_of_comparesBeyond (h : j.toDatum.comparesBeyond room e = true) :
    room < 5 * j.nesting + 4 := by
  induction j using Json.induction generalizing room e with
  | null | bool | string =>
    cases e <;> simp only [toDatum, Datum.comparesBeyond, decide_eq_true_eq] at h <;> omega
  | number n =>
    cases n <;> cases e <;>
      simp only [toDatum, Number.toDatum, Datum.comparesBeyond, decide_eq_true_eq,
        Bool.or_eq_true] at h <;> omega
  | array items ih =>
    have hpos := nesting_array_pos items
    rw [toDatum, itemsToData_eq_map] at h
    cases e with
    | array ys =>
      rw [Datum.comparesBeyond, Bool.or_eq_true, decide_eq_true_eq] at h
      rcases h with hroom | hitems
      · omega
      · obtain ⟨x, hx, y, hbeyond⟩ := Datum.exists_of_itemsBeyond hitems
        obtain ⟨j, hj, rfl⟩ := List.mem_map.mp hx
        have hlt := ih j hj hbeyond
        have hnesting := nesting_lt_of_mem_array hj
        omega
    | _ =>
      simp only [Datum.comparesBeyond, decide_eq_true_eq] at h
      omega
  | object members ih =>
    have hpos := nesting_object_pos members
    rw [toDatum, membersToData_eq_map] at h
    cases e with
    | object ns =>
      rw [Datum.comparesBeyond, Bool.or_eq_true, decide_eq_true_eq] at h
      rcases h with hroom | hmembers
      · omega
      · obtain ⟨x, hx, y, hbeyond⟩ := Datum.exists_of_membersBeyond hmembers
        obtain ⟨m, hm, rfl⟩ := List.mem_map.mp hx
        have hlt := ih m hm hbeyond
        have hnesting := nesting_lt_of_mem_object hm
        omega
    | _ =>
      simp only [Datum.comparesBeyond, decide_eq_true_eq] at h
      omega

/-- **A value that cannot be hashed** is one of many levels. -/
theorem of_hashFault? (h : j.toDatum.hashFault? room = some fault) :
    fault = .hashedTooDeep ∧ room < 2 * j.nesting + 2 := by
  induction j using Json.induction generalizing room with
  | null =>
    rw [toDatum] at h
    simp [Datum.hashFault?] at h
  | bool | string =>
    rw [toDatum, Datum.hashFault?] at h
    exact Datum.of_tooDeep h nofun
  | number n =>
    rw [toDatum, Datum.hashFault?] at h
    refine Datum.of_tooDeep h fun hpayload => ?_
    cases n <;> simp [Number.toDatum, Datum.hashFault?] at hpayload
  | array items ih =>
    rw [toDatum, Datum.hashFault?, itemsToData_eq_map] at h
    refine Datum.of_tooDeep h fun hitems => ?_
    obtain ⟨x, hx, hfault⟩ := Datum.exists_of_itemsHashFault? hitems
    obtain ⟨j, hj, rfl⟩ := List.mem_map.mp hx
    obtain ⟨rfl, hlt⟩ := ih j hj hfault
    have hnesting := nesting_lt_of_mem_array hj
    exact ⟨rfl, by omega⟩
  | object members ih =>
    rw [toDatum, Datum.hashFault?, membersToData_eq_map] at h
    refine Datum.of_tooDeep h fun hmembers => ?_
    obtain ⟨x, hx, hfault⟩ := Datum.exists_of_membersHashFault? hmembers
    obtain ⟨m, hm, rfl⟩ := List.mem_map.mp hx
    obtain ⟨rfl, hlt⟩ := ih m hm hfault
    have hnesting := nesting_lt_of_mem_object hm
    exact ⟨rfl, by omega⟩

/-! ### Answers -/

/-- The nesting up to which no value is too deep. -/
def safeNesting : Nat := 197

theorem safeNesting_lt {n : Nat} (h : Datum.stepLimit < 5 * n + 4) : safeNesting < n := by
  rw [Datum.stepLimit] at h
  rw [safeNesting]
  omega

/-- **A comparison has an answer** unless it goes too deep. -/
theorem equal?_cases (j : Json) (e : Datum) :
    j.toDatum.equal? e = .ok (j.toDatum.same e) ∨
      safeNesting < j.nesting ∧ j.toDatum.equal? e = .error .comparedTooDeep := by
  rw [Datum.equal?]
  split
  · next hbeyond => exact .inr ⟨safeNesting_lt (lt_of_comparesBeyond hbeyond), rfl⟩
  · exact .inl rfl

/-- What keeps a value from being a key. -/
theorem of_checkKey {keys : List Datum} (h : j.toDatum.checkKey keys = .error fault) :
    safeNesting < j.nesting ∧ (fault = .comparedTooDeep ∨ fault = .hashedTooDeep) := by
  rw [Datum.checkKey] at h
  split at h
  · next cause hfault =>
    cases h
    obtain ⟨hcause, hlt⟩ := of_hashFault? hfault
    exact ⟨safeNesting_lt (by omega), .inr hcause⟩
  · split at h
    · next hany =>
      cases h
      obtain ⟨e, -, he⟩ := List.any_eq_true.mp hany
      exact ⟨safeNesting_lt (lt_of_comparesBeyond (Bool.and_eq_true_iff.mp he).2), .inl rfl⟩
    · cases h

theorem of_checkKeys {js : List Json} {before : List Datum}
    (h : Datum.checkKeys before (js.map toDatum) = .error fault) :
    (∃ j ∈ js, safeNesting < j.nesting) ∧
      (fault = .comparedTooDeep ∨ fault = .hashedTooDeep) := by
  induction js generalizing before with
  | nil => cases h
  | cons j js ih =>
    rw [List.map_cons, Datum.checkKeys] at h
    cases hkey : j.toDatum.checkKey before with
    | error cause =>
      rw [hkey] at h
      cases h
      obtain ⟨hnesting, hcause⟩ := of_checkKey hkey
      exact ⟨⟨j, List.mem_cons_self, hnesting⟩, hcause⟩
    | ok =>
      rw [hkey] at h
      obtain ⟨⟨k, hk, hnesting⟩, hcause⟩ := ih h
      exact ⟨⟨k, List.mem_cons_of_mem j hk, hnesting⟩, hcause⟩

/-- **A set has members** unless one of them is too deep. -/
theorem set?_cases (js : List Json) :
    Datum.set? (js.map toDatum) = .ok (Datum.distinct (js.map toDatum)) ∨
      (∃ j ∈ js, safeNesting < j.nesting) ∧
        (Datum.set? (js.map toDatum) = .error .comparedTooDeep ∨
          Datum.set? (js.map toDatum) = .error .hashedTooDeep) := by
  rw [Datum.set?]
  cases hkeys : Datum.checkKeys [] (js.map toDatum) with
  | ok => exact .inl rfl
  | error fault =>
    obtain ⟨hdeep, rfl | rfl⟩ := of_checkKeys hkeys
    · exact .inr ⟨hdeep, .inl rfl⟩
    · exact .inr ⟨hdeep, .inr rfl⟩

end Json

end JsonLayout
