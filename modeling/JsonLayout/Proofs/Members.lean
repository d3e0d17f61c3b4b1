import JsonLayout.Members
import Mathlib.Data.List.Induction
import Mathlib.Data.List.Nodup

/-!
# Repeated keys

When members are set in a table one after another, a key stays where it came first and has the value
that came last.  So the table has the distinct keys in the order of their first places, and under
each of them what looking for the last member with it gives.

## Main definitions

* `Members.latest`: each key once, at its first place and with its last value.
* `Members.first?`: the value of the first member with a key.

## Main results

* `Members.foldl_put`: setting the members one after another gives that table.
* `Members.first?_latest`: a key has in it the value of its last member.
* `Members.latest_eq_self_iff`: nothing is lost if and only if no key comes twice.
-/

namespace JsonLayout

/-! ### Distinct elements -/

section EraseDups

variable {α : Type} [BEq α] [LawfulBEq α]

theorem nodup_eraseDups (as : List α) : as.eraseDups.Nodup := by
  cases as with
  | nil => exact List.nodup_nil
  | cons a as =>
    rw [List.eraseDups_cons, List.nodup_cons]
    refine ⟨?_, nodup_eraseDups _⟩
    rw [List.mem_eraseDups, List.mem_filter]
    simp
termination_by as.length
decreasing_by exact Nat.lt_succ_of_le (List.length_filter_le _ _)

theorem eraseDups_of_nodup {as : List α} (h : as.Nodup) : as.eraseDups = as := by
  induction as with
  | nil => rfl
  | cons a as ih =>
    rw [List.nodup_cons] at h
    have hfilter : (as.filter fun b => !b == a) = as := by
      rw [List.filter_eq_self]
      intro b hb
      have hne : b ≠ a := fun hba => h.1 (hba ▸ hb)
      simpa using hne
    rw [List.eraseDups_cons, hfilter, ih h.2]

/-- An element behind others adds nothing if it is among them, and else stands at the end. -/
theorem eraseDups_concat (as : List α) (a : α) :
    (as ++ [a]).eraseDups = if a ∈ as then as.eraseDups else as.eraseDups ++ [a] := by
  rw [List.eraseDups_append]
  split
  · next h => simp [List.removeAll, h]
  · next h => simp [List.removeAll, h, List.eraseDups_cons]

end EraseDups

namespace Members

variable {α β : Type}

/-! ### Tables -/

/-- The value of the first member with a key. -/
def first? (ms : Members α) (key : Text) : Option α := (ms.find? fun m => m.1 = key).map (·.2)

@[simp] theorem keys_nil : keys ([] : Members α) = [] := rfl

@[simp] theorem keys_cons (m : Text × α) (ms : Members α) : keys (m :: ms) = m.1 :: keys ms := rfl

theorem first?_cons (m : Text × α) (ms : Members α) (key : Text) :
    first? (m :: ms) key = if m.1 = key then some m.2 else first? ms key := by
  rw [first?, List.find?_cons]
  split <;> simp_all [first?]

theorem first?_eq_none_iff {ms : Members α} {key : Text} :
    ms.first? key = none ↔ key ∉ ms.keys := by
  induction ms with
  | nil => simp [first?]
  | cons m ms ih =>
    rw [first?_cons, keys_cons, List.mem_cons, not_or, ← ih]
    by_cases hm : m.1 = key
    · simp [hm]
    · simp [hm, Ne.symm hm]

theorem first?_put (table : Members α) (key k : Text) (a : α) :
    (table.put key a).first? k = if key = k then some a else table.first? k := by
  induction table with
  | nil => rw [put, first?_cons]
  | cons m table ih =>
    rw [put]
    by_cases hm : m.1 = key
    · rw [if_pos hm, first?_cons, first?_cons, hm]
      split <;> rfl
    · rw [if_neg hm, first?_cons, first?_cons, ih]
      by_cases hk : key = k
      · rw [if_pos hk, if_neg (hk ▸ hm), if_pos hk]
      · rw [if_neg hk, if_neg hk]

theorem keys_put (table : Members α) (key : Text) (a : α) :
    (table.put key a).keys = if key ∈ table.keys then table.keys else table.keys ++ [key] := by
  induction table with
  | nil => rfl
  | cons m table ih =>
    rw [put]
    by_cases hm : m.1 = key
    · rw [if_pos hm, if_pos (by simp [hm])]
      rfl
    · rw [if_neg hm, keys_cons, ih, keys_cons]
      by_cases hk : key ∈ keys table
      · rw [if_pos hk, if_pos (List.mem_cons_of_mem _ hk)]
      · rw [if_neg hk, if_neg (List.not_mem_cons_of_ne_of_not_mem (Ne.symm hm) hk),
          List.cons_append]

/-- **Tables with the same keys** in the same order are equal if every key has the same value in
both. -/
theorem eq_of_keys {table table' : Members α} (hkeys : table.keys = table'.keys)
    (hnodup : table.keys.Nodup) (h : ∀ key, table.first? key = table'.first? key) :
    table = table' := by
  induction table generalizing table' with
  | nil => exact (List.map_eq_nil_iff.mp hkeys.symm).symm
  | cons m table ih =>
    cases table' with
    | nil => exact absurd hkeys (List.cons_ne_nil _ _)
    | cons m' table' =>
      rw [keys_cons, keys_cons, List.cons.injEq] at hkeys
      rw [keys_cons, List.nodup_cons] at hnodup
      have hvalue : m.2 = m'.2 := by
        have hfirst := h m.1
        rw [first?_cons, first?_cons, if_pos rfl, if_pos hkeys.1.symm] at hfirst
        exact Option.some.inj hfirst
      have hrest : ∀ key, first? table key = first? table' key := by
        intro key
        by_cases hk : m.1 = key
        · have hnone : key ∉ keys table := hk ▸ hnodup.1
          rw [first?_eq_none_iff.mpr hnone, first?_eq_none_iff.mpr (hkeys.2 ▸ hnone)]
        · have hfirst := h key
          rwa [first?_cons, first?_cons, ← hkeys.1, if_neg hk, if_neg hk] at hfirst
      rw [Prod.ext hkeys.1 hvalue, ih hkeys.2 hnodup.2 hrest]

/-! ### The last member with a key -/

/-- The last member with a key is the first from the end. -/
theorem last?_eq_first?_reverse (ms : Members α) (key : Text) :
    ms.last? key = first? ms.reverse key := rfl

theorem last?_concat (ms : Members α) (m : Text × α) (key : Text) :
    last? (ms ++ [m]) key = if m.1 = key then some m.2 else ms.last? key := by
  rw [last?_eq_first?_reverse, List.reverse_append, List.reverse_singleton, List.singleton_append,
    first?_cons, last?_eq_first?_reverse]

theorem last?_eq_none_iff {ms : Members α} {key : Text} :
    ms.last? key = none ↔ key ∉ ms.keys := by
  rw [last?_eq_first?_reverse, first?_eq_none_iff, keys, List.map_reverse, List.mem_reverse, keys]

theorem mem_of_last? {ms : Members α} {key : Text} {a : α} (h : ms.last? key = some a) :
    (key, a) ∈ ms := by
  obtain ⟨m, hm, rfl⟩ := Option.map_eq_some_iff.mp h
  have hkey := List.find?_some hm
  rw [← of_decide_eq_true hkey]
  exact List.mem_reverse.mp (List.mem_of_find?_eq_some hm)

theorem last?_map (ms : Members α) (f : α → β) (key : Text) :
    last? (ms.map fun m => (m.1, f m.2)) key = (ms.last? key).map f := by
  rw [last?, last?, ← List.map_reverse, List.find?_map, Option.map_map, Option.map_map]
  rfl

/-- Where no key comes twice, the last member with a key is the first. -/
theorem last?_eq_first? {ms : Members α} (h : ms.keys.Nodup) (key : Text) :
    ms.last? key = ms.first? key := by
  induction ms with
  | nil => rfl
  | cons m ms ih =>
    rw [keys_cons, List.nodup_cons] at h
    have hcons : last? (m :: ms) key = (last? ms key).or (first? [m] key) := by
      rw [last?, List.reverse_cons, List.find?_append, Option.map_or]
      rfl
    rw [hcons, first?_cons, first?_cons, ih h.2]
    by_cases hk : m.1 = key
    · rw [if_pos hk, if_pos hk, first?_eq_none_iff.mpr (hk ▸ h.1), Option.none_or]
    · rw [if_neg hk, if_neg hk]
      exact Option.or_none

/-! ### Each key once -/

/-- **The members as a table**: the distinct keys in the order of their first places, each with the
value of the last member that has it. -/
def latest (ms : Members α) : Members α :=
  ms.keys.eraseDups.filterMap fun key => (ms.last? key).map fun a => (key, a)

theorem keys_latest (ms : Members α) : ms.latest.keys = ms.keys.eraseDups := by
  have hsome : ∀ key ∈ ms.keys.eraseDups,
      ((ms.last? key).map fun a => (key, a)).map (·.1) = some key := by
    intro key hkey
    rw [List.mem_eraseDups] at hkey
    obtain ⟨a, ha⟩ := Option.ne_none_iff_exists'.mp (mt last?_eq_none_iff.mp (not_not_intro hkey))
    rw [ha]
    rfl
  rw [keys, latest, List.map_filterMap, List.filterMap_congr hsome, List.filterMap_some]

theorem first?_filterMap (keys : List Text) (f : Text → Option α) (key : Text) :
    first? (keys.filterMap fun k => (f k).map fun a => (k, a)) key
      = if key ∈ keys then f key else none := by
  induction keys with
  | nil => rfl
  | cons k keys ih =>
    rw [List.filterMap_cons]
    by_cases hk : k = key
    · subst hk
      cases hf : f k with
      | none => simp [ih, hf]
      | some a => simp [first?_cons]
    · cases hf : f k with
      | none => simp [ih, Ne.symm hk]
      | some a => simp [first?_cons, ih, hk, Ne.symm hk]

theorem first?_latest (ms : Members α) (key : Text) : ms.latest.first? key = ms.last? key := by
  rw [latest, first?_filterMap]
  split
  · rfl
  · next h => rw [last?_eq_none_iff.mpr (mt List.mem_eraseDups.mpr h)]

/-- **Setting members** one after another gives each key once, at its first place and with its last
value. -/
theorem foldl_put (ms : Members α) :
    ms.foldl (fun table m => put table m.1 m.2) [] = ms.latest := by
  have hkeys : ∀ ms : Members α,
      keys (ms.foldl (fun table m => put table m.1 m.2) []) = ms.keys.eraseDups := by
    intro ms
    induction ms using List.reverseRecOn with
    | nil => rfl
    | append_singleton ms m ih =>
      have hconcat : keys (ms ++ [m]) = keys ms ++ [m.1] := List.map_append
      rw [List.foldl_append, List.foldl_cons, List.foldl_nil, keys_put, ih, hconcat,
        eraseDups_concat]
      simp only [List.mem_eraseDups]
  have hvalues : ∀ key, first? (ms.foldl (fun table m => put table m.1 m.2) []) key
      = ms.last? key := by
    intro key
    induction ms using List.reverseRecOn with
    | nil => rfl
    | append_singleton ms m ih =>
      rw [List.foldl_append, List.foldl_cons, List.foldl_nil, first?_put, ih, last?_concat]
  refine eq_of_keys ?_ ?_ ?_
  · rw [hkeys, keys_latest]
  · rw [hkeys]
    exact nodup_eraseDups _
  · intro key
    rw [hvalues, first?_latest]

theorem latest_eq_self_iff {ms : Members α} : ms.latest = ms ↔ ms.keys.Nodup := by
  constructor
  · intro h
    rw [← h, keys_latest]
    exact nodup_eraseDups _
  · intro h
    refine eq_of_keys ?_ ?_ ?_
    · rw [keys_latest, eraseDups_of_nodup h]
    · rw [keys_latest]
      exact nodup_eraseDups _
    · intro key
      rw [first?_latest, last?_eq_first? h]

theorem mem_of_mem_latest {ms : Members α} {m : Text × α} (h : m ∈ ms.latest) : m ∈ ms := by
  obtain ⟨key, -, hm⟩ := List.mem_filterMap.mp h
  obtain ⟨a, ha, rfl⟩ := Option.map_eq_some_iff.mp hm
  exact mem_of_last? ha

theorem latest_map (ms : Members α) (f : α → β) :
    latest (ms.map fun m => (m.1, f m.2)) = ms.latest.map fun m => (m.1, f m.2) := by
  have hkeys : keys (ms.map fun m => (m.1, f m.2)) = ms.keys := by
    simp [keys]
  rw [latest, latest, hkeys, List.map_filterMap]
  refine List.filterMap_congr fun key _ => ?_
  rw [last?_map, Option.map_map, Option.map_map]
  rfl

end Members

end JsonLayout
