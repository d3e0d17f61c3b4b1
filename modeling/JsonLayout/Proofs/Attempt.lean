import JsonLayout.Datum.Error
import Mathlib.Data.List.Forall2

/-!
# Attempts on the parts of a whole

Data are converted and laid out part by part, and the first part that fails decides.

## Main definitions

* `failure?`: what an attempt failed with.

## Main results

* `mapM_eq_ok_iff`, `failure?_mapM`: an attempt on one part after the other, from those on the
  parts.
-/

namespace JsonLayout

variable {α β : Type}

/-- What an attempt failed with, if it did. -/
def failure? : Except DataError α → Option DataError
  | .ok _ => none
  | .error e => some e

theorem isSome_failure?_iff {r : Except DataError α} :
    (failure? r).isSome = true ↔ ∃ e, r = .error e := by
  cases r with
  | ok a => exact iff_of_false Bool.false_ne_true nofun
  | error e => exact iff_of_true rfl ⟨e, rfl⟩

theorem failure?_eq_some_iff {r : Except DataError α} {e : DataError} :
    failure? r = some e ↔ r = .error e := by
  cases r with
  | ok a => exact iff_of_false nofun nofun
  | error e' => rw [failure?, Option.some.injEq, Except.error.injEq]

theorem failure?_eq_none_iff {r : Except DataError α} : failure? r = none ↔ ∃ a, r = .ok a := by
  cases r with
  | ok a => exact iff_of_true rfl ⟨a, rfl⟩
  | error e => exact iff_of_false nofun nofun

@[simp] theorem failure?_map (f : α → β) (r : Except DataError α) :
    failure? (r.map f) = failure? r := by
  cases r <;> rfl

theorem map_eq_ok_iff {f : α → β} {r : Except DataError α} {b : β} :
    r.map f = .ok b ↔ ∃ a, r = .ok a ∧ f a = b := by
  cases r <;> simp [Except.map]

/-- An attempt on one part after the other succeeds if and only if those on the parts do. -/
theorem mapM_eq_ok_iff {f : α → Except DataError β} {as : List α} {bs : List β} :
    as.mapM f = .ok bs ↔ List.Forall₂ (fun a b => f a = .ok b) as bs := by
  induction as generalizing bs with
  | nil => cases bs <;> simp [pure, Except.pure]
  | cons a as ih =>
    rw [List.mapM_cons, List.forall₂_cons_left_iff]
    cases ha : f a with
    | error e => simp [bind, Except.bind]
    | ok b =>
      cases has : as.mapM f with
      | error e => simp [bind, Except.bind, ← ih, has]
      | ok bs' => simp [bind, Except.bind, pure, Except.pure, ← ih, has, eq_comm]

/-- An attempt on one part after the other fails with the first of the parts that does. -/
theorem failure?_mapM (f : α → Except DataError β) (as : List α) :
    failure? (as.mapM f) = as.findSome? fun a => failure? (f a) := by
  induction as with
  | nil => rfl
  | cons a as ih =>
    rw [List.mapM_cons, List.findSome?_cons, ← ih]
    cases f a with
    | error e => rfl
    | ok b => cases as.mapM f <;> rfl

/-- Attempts on the parts of two wholes that come out alike one by one do so together. -/
theorem mapM_eq_of_forall₂ {f : α → Except DataError β} {as bs : List α}
    (h : List.Forall₂ (fun a b => f b = f a) as bs) : bs.mapM f = as.mapM f := by
  induction h with
  | nil => rfl
  | cons h _ ih => rw [List.mapM_cons, List.mapM_cons, h, ih]

/-! ### Lists with the same parts -/

theorem findSome?_congr_of_mem {f g : α → Option β} {as : List α} (h : ∀ a ∈ as, f a = g a) :
    as.findSome? f = as.findSome? g := by
  induction as with
  | nil => rfl
  | cons a as ih =>
    rw [List.forall_mem_cons] at h
    rw [List.findSome?_cons, List.findSome?_cons, h.1, ih h.2]

theorem forall₂_congr_of_mem {R S : α → β → Prop} {as : List α} {bs : List β}
    (h : ∀ a ∈ as, ∀ b, R a b ↔ S a b) : List.Forall₂ R as bs ↔ List.Forall₂ S as bs := by
  induction as generalizing bs with
  | nil => simp
  | cons a as ih =>
    rw [List.forall_mem_cons] at h
    cases bs with
    | nil => simp
    | cons b bs => rw [List.forall₂_cons, List.forall₂_cons, h.1, ih h.2]

theorem forall₂_imp_of_mem {R S : α → β → Prop} {as : List α} {bs : List β}
    (h : ∀ a ∈ as, ∀ b, R a b → S a b) (hR : List.Forall₂ R as bs) : List.Forall₂ S as bs :=
  ((List.forall₂_and_left as bs).mpr ⟨h, hR⟩).imp fun _ b hab => hab.1 b hab.2

theorem forall₂_and_iff {R S : α → β → Prop} {as : List α} {bs : List β} :
    List.Forall₂ (fun a b => R a b ∧ S a b) as bs ↔
      List.Forall₂ R as bs ∧ List.Forall₂ S as bs := by
  induction as generalizing bs with
  | nil => simp
  | cons a as ih => cases bs <;> simp [ih, and_and_and_comm]

end JsonLayout
