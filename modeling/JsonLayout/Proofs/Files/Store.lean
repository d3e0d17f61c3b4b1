import JsonLayout.Files.Encoding
import Mathlib.Data.List.Basic
import Mathlib.Tactic.SplitIfs

/-!
# Files that are written

What is put at a location is found there, and at every other location what was there before.  A
location that a file is created at is never the root.

## Main results

* `contentBytes_eq_ok_iff`: the texts that can be written, and their bytes.
* `pathBytes_eq_ok`: paths that have bytes.
* `FileStore.node?_put_self`, `FileStore.node?_put_of_ne`: what is found after a file was written.
* `FileStore.ne_nil_of_target`: a file is not created at the root.
-/

namespace JsonLayout

/-! ### Contents -/

theorem Utf8.unencodable?_eq_none_iff (offset : Nat) (t : Text) :
    unencodable? offset t = none ↔ ∀ c ∈ t, c.isSurrogate = false := by
  induction t generalizing offset with
  | nil => exact iff_of_true rfl (List.forall_mem_nil _)
  | cons c t ih =>
    rw [unencodable?, List.forall_mem_cons]
    cases hc : c.isSurrogate with
    | true => simp
    | false => simp [ih]

/-- The bytes of a text, as if surrogates had some as well. -/
def Text.bytes (t : Text) : Bytes := t.flatMap Utf8.encodePoint

theorem Text.bytes_append (t u : Text) : Text.bytes (t ++ u) = Text.bytes t ++ Text.bytes u :=
  List.flatMap_append

/-- **The texts that can be written** are those without surrogates. -/
theorem contentBytes_eq_ok_iff {t : Text} {bytes : Bytes} :
    contentBytes t = .ok bytes ↔ (∀ c ∈ t, c.isSurrogate = false) ∧ bytes = t.bytes := by
  rw [contentBytes, Utf8.encode, ← Utf8.unencodable?_eq_none_iff 0 t]
  cases Utf8.unencodable? 0 t with
  | some run => simp [Except.mapError]
  | none => simp [Except.mapError, Text.bytes, eq_comm]

/-- Texts that can be written one after the other. -/
theorem contentBytes_append {t u : Text} {b c : Bytes} (ht : contentBytes t = .ok b)
    (hu : contentBytes u = .ok c) : contentBytes (t ++ u) = .ok (b ++ c) := by
  rw [contentBytes_eq_ok_iff] at ht hu ⊢
  obtain ⟨hcleant, rfl⟩ := ht
  obtain ⟨hcleanu, rfl⟩ := hu
  exact ⟨List.forall_mem_append.mpr ⟨hcleant, hcleanu⟩, (Text.bytes_append t u).symm⟩

/-! ### Paths -/

namespace Utf8

theorem isRawByte_of_not_isSurrogate {c : CodePoint} (h : c.isSurrogate = false) :
    isRawByte c = false := by
  simp only [CodePoint.isSurrogate, isRawByte, Bool.and_eq_false_iff, decide_eq_false_iff_not]
    at h ⊢
  omega

theorem encodePath_eq_ok {t : Text} (h : ∀ c ∈ t, c.isSurrogate = false) (offset : Nat) :
    encodePath offset t = .ok t.bytes := by
  induction t generalizing offset with
  | nil => rfl
  | cons c t ih =>
    rw [List.forall_mem_cons] at h
    rw [encodePath, isRawByte_of_not_isSurrogate h.1, h.1, ih h.2]
    rfl

theorem zero_not_mem_encodePoint {c : CodePoint} (h : c.val ≠ 0) : 0 ∉ encodePoint c := by
  have hne : ∀ n : Nat, 0 < n → n < 256 → (0 : UInt8) ≠ .ofNat n := by
    intro n hpos hlt heq
    have hnat := congrArg UInt8.toNat heq
    rw [UInt8.toNat_ofNat', Nat.mod_eq_of_lt hlt] at hnat
    exact absurd hnat.symm (Nat.ne_of_gt hpos)
  have hc := c.isLt
  rw [encodePoint]
  split_ifs
  all_goals
    simp only [List.mem_cons, List.not_mem_nil, or_false, not_or]
    repeat' constructor
    all_goals exact hne _ (by omega) (by omega)

end Utf8

/-- **A path has bytes** if it holds no null character and no surrogate. -/
theorem pathBytes_eq_ok {path : Text} (h : ∀ c ∈ path, c.val ≠ 0 ∧ c.isSurrogate = false) :
    pathBytes path = .ok path.bytes := by
  have hzero : path.bytes.contains 0 = false := by
    rw [Bool.eq_false_iff, Ne, List.contains_iff_mem, Text.bytes, List.mem_flatMap]
    rintro ⟨c, hc, hmem⟩
    exact Utf8.zero_not_mem_encodePoint (h c hc).1 hmem
  rw [pathBytes, Utf8.encodePath_eq_ok fun c hc => (h c hc).2]
  simp only [hzero, Bool.false_eq_true, if_false]

/-! ### Places -/

namespace FileStore

variable {files : FileStore} {location other : Location} {content : Bytes}

theorem find?_putNode_self (nodes : List (Location × Node)) (location : Location) (node : Node) :
    (putNode nodes location node).find? (fun e => e.1 = location) = some (location, node) := by
  induction nodes with
  | nil => simp [putNode]
  | cons e nodes ih =>
    rw [putNode]
    split
    · simp
    · next h => rw [List.find?_cons_of_neg (by simpa using h), ih]

theorem find?_putNode_of_ne {other : Location} (h : other ≠ location)
    (nodes : List (Location × Node)) (node : Node) :
    (putNode nodes location node).find? (fun e => e.1 = other)
      = nodes.find? (fun e => e.1 = other) := by
  induction nodes with
  | nil => simp [putNode, Ne.symm h]
  | cons e nodes ih =>
    rw [putNode]
    split
    · next he =>
      rw [List.find?_cons_of_neg (by simpa using Ne.symm h),
        List.find?_cons_of_neg (by simpa [he] using Ne.symm h)]
    · rw [List.find?_cons, List.find?_cons, ih]

theorem node?_put_self (h : location ≠ []) :
    (files.put location content).node? location = some (.file content) := by
  rw [node?, if_neg h, put, find?_putNode_self]
  rfl

theorem node?_put_of_ne (h : other ≠ location) :
    (files.put location content).node? other = files.node? other := by
  rw [node?, node?, put, find?_putNode_of_ne h]

/-- A file is not created at the root, which is a directory. -/
theorem ne_nil_of_target {path : Bytes} (h : files.target path = .ok location) :
    location ≠ [] := by
  rintro rfl
  have hroot : files.node? [] = some .directory := rfl
  simp only [target, bind, Except.bind] at h
  -- of all the ways through, only the last one gives a location
  repeat' split at h
  all_goals cases h
  next hdirectory _ => exact hdirectory hroot

end FileStore

end JsonLayout
