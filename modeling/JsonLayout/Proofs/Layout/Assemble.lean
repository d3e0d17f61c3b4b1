import JsonLayout.Layout.Render
import JsonLayout.Proofs.Text
import Mathlib.Data.List.Forall2

/-!
# Assembling pieces

The work list takes one piece after another, and what comes after a piece has no part in what the
piece gives.  So every list of pieces has an outcome of its own, a text or an error, and outcomes
are put together like the lists.

## Main definitions

* `Options.Yields`: the outcome of a list of pieces.

## Main results

* `Options.assemble_eq_map`: the texts written so far stand in front of the rest.
* `Options.Yields.append`, `Options.Yields.array`, `Options.Yields.object`: outcomes of lists and of
  containers.
* `Options.exists_yields_join`: parts with separators between them.
-/

namespace JsonLayout

namespace Options

variable (opts : Options)

/-! ### One step -/

theorem assemble_array (done : List Text) (items : List Datum) (place : Place)
    (work : List Piece) :
    opts.assemble done (.array items place :: work)
      = (opts.arrayPieces items place).bind fun ps => opts.assemble done (ps ++ work) := by
  rw [assemble.eq_def]
  dsimp only
  split
  · next e h => rw [h]; rfl
  · next ps h => rw [h]; rfl

theorem assemble_object (done : List Text) (members : List (Text × Datum)) (place : Place)
    (work : List Piece) :
    opts.assemble done (.object members place :: work)
      = (opts.objectPieces members place).bind fun ps => opts.assemble done (ps ++ work) := by
  rw [assemble.eq_def]
  dsimp only
  split
  · next e h => rw [h]; rfl
  · next ps h => rw [h]; rfl

theorem assemble_text (done : List Text) (t : Text) (work : List Piece) :
    opts.assemble done (.text t :: work) = opts.assemble (t :: done) work := by
  rw [assemble]

theorem assemble_nil (done : List Text) : opts.assemble done [] = .ok done.reverse.flatten := by
  rw [assemble]

/-- **The texts written so far** stand in front of whatever the work list gives. -/
theorem assemble_eq_map (done : List Text) (work : List Piece) :
    opts.assemble done work = (opts.assemble [] work).map (done.reverse.flatten ++ ·) := by
  -- a container that comes up is replaced by pieces that are smaller together
  induction hn : Piece.totalSize work using Nat.strongRecOn generalizing done work with
  | ind n ih =>
    subst hn
    match work with
    | [] =>
      rw [assemble_nil, assemble_nil]
      simp [Except.map]
    | .text t :: work =>
      have hlt : Piece.totalSize work < Piece.totalSize (.text t :: work) := by
        rw [Piece.totalSize_cons, Piece.size_text]
        omega
      rw [assemble_text, assemble_text, ih _ hlt (t :: done) work rfl, ih _ hlt [t] work rfl]
      cases opts.assemble [] work <;> simp [Except.map]
    | .array items place :: work =>
      rw [assemble_array, assemble_array]
      cases hps : opts.arrayPieces items place with
      | error e => rfl
      | ok ps =>
        refine ih _ ?_ done (ps ++ work) rfl
        have hlt := totalSize_arrayPieces_lt hps
        rw [Piece.totalSize_append, Piece.totalSize_cons]
        omega
    | .object members place :: work =>
      rw [assemble_object, assemble_object]
      cases hps : opts.objectPieces members place with
      | error e => rfl
      | ok ps =>
        refine ih _ ?_ done (ps ++ work) rfl
        have hlt := totalSize_objectPieces_lt hps
        rw [Piece.totalSize_append, Piece.totalSize_cons]
        omega

/-! ### Outcomes -/

/-- The outcome of a list of pieces: a text that comes before whatever the pieces after it give, or
an error with which all ends. -/
def Yields (ps : List Piece) (r : Except DataError Text) : Prop :=
  ∀ work, opts.assemble [] (ps ++ work) = r.bind fun t => (opts.assemble [] work).map (t ++ ·)

variable {opts}

theorem Yields.assemble_eq {ps : List Piece} {r : Except DataError Text} (h : opts.Yields ps r) :
    opts.assemble [] ps = r := by
  have h := h []
  rw [List.append_nil, assemble_nil] at h
  rw [h]
  cases r <;> simp [Except.bind, Except.map]

theorem Yields.congr {ps : List Piece} {r r' : Except DataError Text} (h : opts.Yields ps r)
    (hr : r = r') : opts.Yields ps r' := hr ▸ h

theorem yields_nil : opts.Yields [] (.ok []) := by
  intro work
  rw [List.nil_append]
  cases opts.assemble [] work <;> simp [Except.bind, Except.map]

theorem yields_text (opts : Options) (t : Text) : opts.Yields [.text t] (.ok t) := by
  intro work
  rw [List.singleton_append, assemble_text, assemble_eq_map]
  simp [Except.bind]

theorem Yields.append {ps qs : List Piece} {t : Text} {r : Except DataError Text}
    (hp : opts.Yields ps (.ok t)) (hq : opts.Yields qs r) :
    opts.Yields (ps ++ qs) (r.map (t ++ ·)) := by
  intro work
  rw [List.append_assoc, hp (qs ++ work), hq work]
  cases r with
  | error e => rfl
  | ok u => cases opts.assemble [] work <;> simp [Except.bind, Except.map]

/-- An error ends all. -/
theorem Yields.append_of_error {ps : List Piece} {e : DataError} (hp : opts.Yields ps (.error e))
    (qs : List Piece) : opts.Yields (ps ++ qs) (.error e) := by
  intro work
  rw [List.append_assoc, hp (qs ++ work)]
  rfl

theorem yields_array_of_error {items : List Datum} {place : Place} {e : DataError}
    (h : opts.arrayPieces items place = .error e) :
    opts.Yields [.array items place] (.error e) := by
  intro work
  rw [List.singleton_append, assemble_array, h]
  rfl

theorem Yields.array {items : List Datum} {place : Place} {ps : List Piece}
    {r : Except DataError Text} (h : opts.arrayPieces items place = .ok ps)
    (hps : opts.Yields ps r) : opts.Yields [.array items place] r := by
  intro work
  rw [List.singleton_append, assemble_array, h]
  exact hps work

theorem yields_object_of_error {members : List (Text × Datum)} {place : Place} {e : DataError}
    (h : opts.objectPieces members place = .error e) :
    opts.Yields [.object members place] (.error e) := by
  intro work
  rw [List.singleton_append, assemble_object, h]
  rfl

theorem Yields.object {members : List (Text × Datum)} {place : Place} {ps : List Piece}
    {r : Except DataError Text} (h : opts.objectPieces members place = .ok ps)
    (hps : opts.Yields ps r) : opts.Yields [.object members place] r := by
  intro work
  rw [List.singleton_append, assemble_object, h]
  exact hps work

/-! ### Parts with separators -/

/-- Separators between pieces, as between lists of one piece each. -/
theorem intersperse_eq_flatten (p : Piece) (ps : List Piece) :
    ps.intersperse p = ((ps.map fun q => [q]).intersperse [p]).flatten := by
  induction ps with
  | nil => rfl
  | cons q ps ih =>
    cases ps with
    | nil => rfl
    | cons r ps => exact congrArg (q :: p :: ·) ih

/-- **Parts of a container**, each of which gives its text or an error: with separators between
them, they give all the texts, or the error of one of them. -/
theorem exists_yields_join {α : Type} {P : α → Prop} {Q : α → DataError → Prop} {text : α → Text}
    {as : List α} {pss : List (List Piece)} (separator : Text)
    (h : List.Forall₂ (fun a ps => (P a ∧ opts.Yields ps (.ok (text a))) ∨
      ∃ e, Q a e ∧ opts.Yields ps (.error e)) as pss) :
    ((∀ a ∈ as, P a) ∧ opts.Yields (pss.intersperse [.text separator]).flatten
        (.ok (Text.join separator (as.map text)))) ∨
      ∃ a ∈ as, ∃ e, Q a e ∧
        opts.Yields (pss.intersperse [.text separator]).flatten (.error e) := by
  induction h with
  | nil => exact .inl ⟨List.forall_mem_nil _, yields_nil⟩
  | @cons a ps as pss ha has ih =>
    -- with nothing behind the first part there is no separator either
    have hrest : (pss = [] ∧ as = []) ∨ (as ≠ [] ∧
        ((ps :: pss).intersperse [.text separator]).flatten
          = ps ++ ([.text separator] ++ (pss.intersperse [.text separator]).flatten)) := by
      cases has with
      | nil => exact .inl ⟨rfl, rfl⟩
      | cons => exact .inr ⟨List.cons_ne_nil _ _, rfl⟩
    rcases hrest with ⟨rfl, rfl⟩ | ⟨hne, hflat⟩
    · rw [List.intersperse_singleton, List.flatten_singleton, List.map_singleton,
        Text.join_singleton, List.forall_mem_singleton]
      rcases ha with ha | ⟨e, hQ, he⟩
      · exact .inl ha
      · exact .inr ⟨a, List.mem_singleton_self a, e, hQ, he⟩
    · rw [hflat, List.map_cons, Text.join_cons _ _ (by simpa using hne), List.forall_mem_cons]
      rcases ha with ⟨hP, ha⟩ | ⟨e, hQ, he⟩
      · rcases ih with ⟨hPs, ih⟩ | ⟨b, hb, e, hQ, he⟩
        · exact .inl ⟨⟨hP, hPs⟩, ha.append ((opts.yields_text separator).append ih)⟩
        · exact .inr ⟨b, List.mem_cons_of_mem a hb, e, hQ,
            ha.append ((opts.yields_text separator).append he)⟩
      · exact .inr ⟨a, List.mem_cons_self .., e, hQ, he.append_of_error _⟩

end Options

end JsonLayout
