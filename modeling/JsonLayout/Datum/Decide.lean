import JsonLayout.Datum.Basic

/-!
# Deciding whether data are identical

Identity is finer than equality of data: the integer one and the double one are equal, but not
identical.

## Main definitions

* `Json.identical`, `Datum.identical`: identity as a Boolean.

## Main results

* `Json.identical_iff`, `Datum.identical_iff`: they decide `=`, hence `DecidableEq` for both types.
-/

namespace JsonLayout

/-! ### JSON values -/

mutual

/-- Whether two JSON values are identical. -/
def Json.identical : Json → Json → Bool
  | .null, .null => true
  | .bool a, .bool b => a = b
  | .number m, .number n => m = n
  | .string s, .string t => s = t
  | .array xs, .array ys => Json.itemsIdentical xs ys
  | .object ms, .object ns => Json.membersIdentical ms ns
  | _, _ => false

/-- Whether two lists of JSON values are identical. -/
def Json.itemsIdentical : List Json → List Json → Bool
  | [], [] => true
  | x :: xs, y :: ys => x.identical y && Json.itemsIdentical xs ys
  | _, _ => false

/-- Whether two lists of members are identical. -/
def Json.membersIdentical : List (Text × Json) → List (Text × Json) → Bool
  | [], [] => true
  | (k, x) :: ms, (l, y) :: ns => k = l && x.identical y && Json.membersIdentical ms ns
  | _, _ => false

end

mutual

theorem Json.identical_iff : (a b : Json) → (a.identical b = true ↔ a = b)
  | .null, b | .bool _, b | .number _, b | .string _, b => by
    cases b <;> simp [Json.identical]
  | .array xs, b => by cases b <;> simp [Json.identical, Json.itemsIdentical_iff xs]
  | .object ms, b => by cases b <;> simp [Json.identical, Json.membersIdentical_iff ms]

theorem Json.itemsIdentical_iff : (xs ys : List Json) →
    (Json.itemsIdentical xs ys = true ↔ xs = ys)
  | [], ys => by cases ys <;> simp [Json.itemsIdentical]
  | x :: xs, ys => by
    cases ys <;> simp [Json.itemsIdentical, Json.identical_iff x, Json.itemsIdentical_iff xs]

theorem Json.membersIdentical_iff : (ms ns : List (Text × Json)) →
    (Json.membersIdentical ms ns = true ↔ ms = ns)
  | [], ns => by cases ns <;> simp [Json.membersIdentical]
  | (k, x) :: ms, ns => by
    cases ns with
    | nil => simp [Json.membersIdentical]
    | cons n ns =>
      obtain ⟨l, y⟩ := n
      simp [Json.membersIdentical, Json.identical_iff x, Json.membersIdentical_iff ms]

end

instance : DecidableEq Json := fun a b => decidable_of_iff _ (Json.identical_iff a b)

/-! ### Data -/

mutual

/-- Whether two pieces of data are identical. -/
def Datum.identical : Datum → Datum → Bool
  | .nothing, .nothing => true
  | .bool a, .bool b => a = b
  | .int m, .int n => m = n
  | .float x, .float y => x = y
  | .str s, .str t => s = t
  | .list xs, .list ys => Datum.itemsIdentical xs ys
  | .tuple xs, .tuple ys => Datum.itemsIdentical xs ys
  | .dict es, .dict fs => Datum.entriesIdentical es fs
  | .foreign f, .foreign g => f = g
  | .null, .null => true
  | .boolean a, .boolean b => a = b
  | .number p, .number q => p.identical q
  | .string s, .string t => s = t
  | .array xs, .array ys => Datum.itemsIdentical xs ys
  | .object ms, .object ns => Datum.membersIdentical ms ns
  | _, _ => false

/-- Whether two lists of data are identical. -/
def Datum.itemsIdentical : List Datum → List Datum → Bool
  | [], [] => true
  | x :: xs, y :: ys => x.identical y && Datum.itemsIdentical xs ys
  | _, _ => false

/-- Whether two lists of entries are identical. -/
def Datum.entriesIdentical : List (Datum × Datum) → List (Datum × Datum) → Bool
  | [], [] => true
  | (k, x) :: es, (l, y) :: fs => k.identical l && x.identical y && Datum.entriesIdentical es fs
  | _, _ => false

/-- Whether two lists of members are identical. -/
def Datum.membersIdentical : List (Text × Datum) → List (Text × Datum) → Bool
  | [], [] => true
  | (k, x) :: ms, (l, y) :: ns => k = l && x.identical y && Datum.membersIdentical ms ns
  | _, _ => false

end

mutual

theorem Datum.identical_iff : (a b : Datum) → (a.identical b = true ↔ a = b)
  | .nothing, b | .bool _, b | .int _, b | .float _, b | .str _, b | .foreign _, b | .null, b
  | .boolean _, b | .string _, b => by
    cases b <;> simp [Datum.identical]
  | .list xs, b | .tuple xs, b | .array xs, b => by
    cases b <;> simp [Datum.identical, Datum.itemsIdentical_iff xs]
  | .dict es, b => by cases b <;> simp [Datum.identical, Datum.entriesIdentical_iff es]
  | .number p, b => by cases b <;> simp [Datum.identical, Datum.identical_iff p]
  | .object ms, b => by cases b <;> simp [Datum.identical, Datum.membersIdentical_iff ms]

theorem Datum.itemsIdentical_iff : (xs ys : List Datum) →
    (Datum.itemsIdentical xs ys = true ↔ xs = ys)
  | [], ys => by cases ys <;> simp [Datum.itemsIdentical]
  | x :: xs, ys => by
    cases ys <;> simp [Datum.itemsIdentical, Datum.identical_iff x, Datum.itemsIdentical_iff xs]

theorem Datum.entriesIdentical_iff : (es fs : List (Datum × Datum)) →
    (Datum.entriesIdentical es fs = true ↔ es = fs)
  | [], fs => by cases fs <;> simp [Datum.entriesIdentical]
  | (k, x) :: es, fs => by
    cases fs with
    | nil => simp [Datum.entriesIdentical]
    | cons f fs =>
      obtain ⟨l, y⟩ := f
      simp [Datum.entriesIdentical, Datum.identical_iff k, Datum.identical_iff x,
        Datum.entriesIdentical_iff es]

theorem Datum.membersIdentical_iff : (ms ns : List (Text × Datum)) →
    (Datum.membersIdentical ms ns = true ↔ ms = ns)
  | [], ns => by cases ns <;> simp [Datum.membersIdentical]
  | (k, x) :: ms, ns => by
    cases ns with
    | nil => simp [Datum.membersIdentical]
    | cons n ns =>
      obtain ⟨l, y⟩ := n
      simp [Datum.membersIdentical, Datum.identical_iff x, Datum.membersIdentical_iff ms]

end

instance : DecidableEq Datum := fun a b => decidable_of_iff _ (Datum.identical_iff a b)

end JsonLayout
