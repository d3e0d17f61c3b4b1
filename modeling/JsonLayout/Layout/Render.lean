import JsonLayout.Datum.Conversion
import JsonLayout.Layout.Scalar

/-!
# The layout

A container opens and closes on lines of its own, with each item or member on a line between them
and one level deeper.  An array ends its last line; the line feed is left out where the array stands
in another container.  An object leaves its last line open.

The text is made from a list of pieces.  A piece is a text or a container that waits; a container
that comes up is replaced by its own pieces, in which the containers inside it wait in turn.  So the
scalars of a container are all written before anything in the containers inside it.

## Main definitions

* `Piece`, `Options.arrayPieces`, `Options.objectPieces`: what a container is replaced by.
* `Options.render`: the text of a piece of data at a given depth.
* `Options.format`: the text of a piece of data that is converted first.
-/

namespace JsonLayout

/-- Where a container stands: its depth, whether it follows a key on the same line, and whether it
is a part of another container. -/
structure Place where
  depth : Int
  afterKey : Bool
  embedded : Bool
deriving DecidableEq

/-- A piece of a layout: a text, or a container to be laid out. -/
inductive Piece where
  | text (t : Text)
  | array (items : List Datum) (place : Place)
  | object (members : List (Text × Datum)) (place : Place)
deriving DecidableEq

/-- A bound on the number of pieces that a piece is taken apart into, itself included: around each
piece of data there are a few texts. -/
def Piece.size : Piece → Nat
  | .text _ => 1
  | .array items _ => 3 + 6 * Datum.itemsSize items
  | .object members _ => 3 + 6 * Datum.membersSize members

@[simp] theorem Piece.size_text (t : Text) : (Piece.text t).size = 1 := rfl

@[simp] theorem Piece.size_array (items : List Datum) (place : Place) :
    (Piece.array items place).size = 3 + 6 * Datum.itemsSize items := rfl

@[simp] theorem Piece.size_object (members : List (Text × Datum)) (place : Place) :
    (Piece.object members place).size = 3 + 6 * Datum.membersSize members := rfl

/-- The size of all pieces together. -/
def Piece.totalSize : List Piece → Nat
  | [] => 0
  | p :: ps => p.size + totalSize ps

@[simp] theorem Piece.totalSize_nil : totalSize [] = 0 := rfl

@[simp] theorem Piece.totalSize_cons (p : Piece) (ps : List Piece) :
    totalSize (p :: ps) = p.size + totalSize ps := rfl

@[simp] theorem Piece.totalSize_append (ps qs : List Piece) :
    totalSize (ps ++ qs) = totalSize ps + totalSize qs := by
  induction ps with
  | nil => rw [List.nil_append, totalSize_nil, Nat.zero_add]
  | cons p ps ih => rw [List.cons_append, totalSize_cons, totalSize_cons, ih, Nat.add_assoc]

namespace Options

variable (opts : Options)

/-! ### The pieces of a container -/

/-- The line that opens a container.  After a key it needs no indentation. -/
def opening (bracket : Char) (place : Place) : Piece :=
  let pad := if place.afterKey then [] else opts.indent place.depth
  .text (pad ++ [CodePoint.ofChar bracket, CodePoint.lineFeed])

/-- A line end, where there are parts for it to follow. -/
def lineEnd {α : Type} (parts : List α) : List Piece :=
  if parts.isEmpty then [] else [.text "\n"]

/-- A part of a container at `depth`: a container that waits, or a scalar, which is indented unless
it stands after a key. -/
def part (depth : Int) (afterKey : Bool) (d : Datum) : Except DataError Piece :=
  match d with
  | .array items => .ok (.array items ⟨depth + 1, afterKey, true⟩)
  | .object members => .ok (.object members ⟨depth + 1, afterKey, true⟩)
  | d => (opts.scalarText d).map fun t =>
    .text (if afterKey then t else opts.indent (depth + 1) ++ t)

/-- The pieces of the items of an array, a piece each. -/
def itemPieces (depth : Int) : List Datum → Except DataError (List Piece)
  | [] => .ok []
  | d :: items => do
    let p ← opts.part depth false d
    let ps ← itemPieces depth items
    return p :: ps

/-- The pieces of the members of an object: for each the key, and the piece of the value. -/
def memberPieces (depth : Int) : List (Text × Datum) → Except DataError (List (Text × Piece))
  | [] => .ok []
  | (key, d) :: members => do
    let p ← opts.part depth true d
    let ps ← memberPieces depth members
    return (opts.indent (depth + 1) ++ opts.stringText key ++ (": " : Text), p) :: ps

/-- Fails if a line of a container at some depth, or of its parts, cannot be indented. -/
def checkPlace (place : Place) : Except DataError Unit := do
  opts.checkIndent place.depth
  opts.checkIndent (place.depth + 1)

/-- The pieces of an array. -/
def arrayPieces (items : List Datum) (place : Place) : Except DataError (List Piece) := do
  opts.checkPlace place
  let ps ← opts.itemPieces place.depth items
  let closing := opts.indent place.depth ++ (if place.embedded then ("]" : Text) else "]\n")
  return opts.opening '[' place :: (ps.intersperse (.text ",\n") ++ lineEnd ps ++ [.text closing])

/-- The pieces of an object. -/
def objectPieces (members : List (Text × Datum)) (place : Place) :
    Except DataError (List Piece) := do
  opts.checkPlace place
  let ps ← opts.memberPieces place.depth members
  let lines := ps.map fun (key, p) => [.text key, p]
  let closing := opts.indent place.depth ++ [CodePoint.ofChar '}']
  return opts.opening '{' place ::
    ((lines.intersperse [.text ",\n"]).flatten ++ lineEnd ps ++ [.text closing])

/-! ### Pieces are smaller than their container -/

variable {opts}

theorem size_part_le {depth : Int} {afterKey : Bool} {d : Datum} {p : Piece}
    (h : opts.part depth afterKey d = .ok p) : p.size + 3 ≤ 6 * d.size := by
  unfold part at h
  split at h
  · cases h; simp only [Piece.size_array, Datum.size]; omega
  · cases h; simp only [Piece.size_object, Datum.size]; omega
  · cases hs : opts.scalarText d with
    | error e => simp [hs, Except.map] at h
    | ok t =>
      simp only [hs, Except.map, Except.ok.injEq] at h
      subst h
      have := Datum.size_pos d
      simp only [Piece.size_text]
      omega

theorem totalSize_itemPieces_le {depth : Int} {items : List Datum} {ps : List Piece}
    (h : opts.itemPieces depth items = .ok ps) :
    Piece.totalSize ps + 3 * ps.length ≤ 6 * Datum.itemsSize items := by
  induction items generalizing ps with
  | nil => cases h; simp
  | cons d items ih =>
    cases hp : opts.part depth false d with
    | error e => simp [itemPieces, hp, bind, Except.bind] at h
    | ok p =>
      cases hps : opts.itemPieces depth items with
      | error e => simp [itemPieces, hp, hps, bind, Except.bind] at h
      | ok qs =>
        simp only [itemPieces, hp, hps, bind, Except.bind, pure, Except.pure,
          Except.ok.injEq] at h
        subst h
        have := size_part_le hp
        have := ih hps
        simp only [Piece.totalSize_cons, List.length_cons, Datum.itemsSize]
        omega

theorem totalSize_memberPieces_le {depth : Int} {members : List (Text × Datum)}
    {ps : List (Text × Piece)} (h : opts.memberPieces depth members = .ok ps) :
    Piece.totalSize (ps.map (·.2)) + 3 * ps.length ≤ 6 * Datum.membersSize members := by
  induction members generalizing ps with
  | nil => cases h; simp
  | cons m members ih =>
    obtain ⟨key, d⟩ := m
    cases hp : opts.part depth true d with
    | error e => simp [memberPieces, hp, bind, Except.bind] at h
    | ok p =>
      cases hps : opts.memberPieces depth members with
      | error e => simp [memberPieces, hp, hps, bind, Except.bind] at h
      | ok qs =>
        simp only [memberPieces, hp, hps, bind, Except.bind, pure, Except.pure,
          Except.ok.injEq] at h
        subst h
        have := size_part_le hp
        have := ih hps
        simp only [List.map_cons, Piece.totalSize_cons, List.length_cons, Datum.membersSize]
        omega

theorem totalSize_intersperse_le (t : Text) (ps : List Piece) :
    Piece.totalSize (ps.intersperse (.text t)) ≤ Piece.totalSize ps + ps.length := by
  induction ps with
  | nil => simp
  | cons p ps ih =>
    cases ps with
    | nil => simp
    | cons q ps =>
      simp only [List.intersperse_cons_cons, Piece.totalSize_cons, List.length_cons,
        Piece.size_text] at ih ⊢
      omega

theorem totalSize_flatten_intersperse_le (t : Text) (ps : List (Text × Piece)) :
    Piece.totalSize ((ps.map fun p => [.text p.1, p.2]).intersperse [.text t]).flatten ≤
      Piece.totalSize (ps.map (·.2)) + 2 * ps.length := by
  induction ps with
  | nil => simp
  | cons p ps ih =>
    cases ps with
    | nil => simp; omega
    | cons q ps =>
      simp only [List.map_cons, List.intersperse_cons_cons, List.flatten_cons,
        Piece.totalSize_append, Piece.totalSize_cons, Piece.totalSize_nil, List.length_cons,
        Piece.size_text] at ih ⊢
      omega

theorem totalSize_lineEnd_le {α : Type} (parts : List α) :
    Piece.totalSize (lineEnd parts) ≤ parts.length := by
  cases parts <;> simp [lineEnd]

theorem totalSize_arrayPieces_lt {items : List Datum} {place : Place} {ps : List Piece}
    (h : opts.arrayPieces items place = .ok ps) :
    Piece.totalSize ps < (Piece.array items place).size := by
  cases hc : opts.checkPlace place with
  | error e => simp [arrayPieces, hc, bind, Except.bind] at h
  | ok _ =>
  cases hi : opts.itemPieces place.depth items with
  | error e => simp [arrayPieces, hc, hi, bind, Except.bind] at h
  | ok qs =>
    simp only [arrayPieces, hc, hi, bind, Except.bind, pure, Except.pure, Except.ok.injEq] at h
    subst h
    have := totalSize_itemPieces_le hi
    have := totalSize_intersperse_le ",\n" qs
    have := totalSize_lineEnd_le qs
    simp only [opening, Piece.totalSize_cons, Piece.totalSize_append, Piece.totalSize_nil,
      Piece.size_text, Piece.size_array]
    omega

theorem totalSize_objectPieces_lt {members : List (Text × Datum)} {place : Place}
    {ps : List Piece} (h : opts.objectPieces members place = .ok ps) :
    Piece.totalSize ps < (Piece.object members place).size := by
  cases hc : opts.checkPlace place with
  | error e => simp [objectPieces, hc, bind, Except.bind] at h
  | ok _ =>
  cases hi : opts.memberPieces place.depth members with
  | error e => simp [objectPieces, hc, hi, bind, Except.bind] at h
  | ok qs =>
    simp only [objectPieces, hc, hi, bind, Except.bind, pure, Except.pure, Except.ok.injEq] at h
    subst h
    have := totalSize_memberPieces_le hi
    have := totalSize_flatten_intersperse_le ",\n" qs
    have := totalSize_lineEnd_le qs
    simp only [opening, Piece.totalSize_cons, Piece.totalSize_append, Piece.totalSize_nil,
      Piece.size_text, Piece.size_object]
    omega

/-! ### The text -/

variable (opts)

/-- The text of pieces in order, after the texts `done` (latest first). -/
def assemble (done : List Text) : List Piece → Except DataError Text
  | [] => .ok done.reverse.flatten
  | .text t :: work => assemble (t :: done) work
  | .array items place :: work =>
    match h : opts.arrayPieces items place with
    | .error e => .error e
    | .ok ps =>
      have := totalSize_arrayPieces_lt h
      assemble done (ps ++ work)
  | .object members place :: work =>
    match h : opts.objectPieces members place with
    | .error e => .error e
    | .ok ps =>
      have := totalSize_objectPieces_lt h
      assemble done (ps ++ work)
termination_by work => Piece.totalSize work
decreasing_by
  all_goals simp only [Piece.totalSize_cons, Piece.totalSize_append, Piece.size_text,
    Piece.size_array, Piece.size_object] at *
  all_goals omega

/-- The text of a piece of data at a depth, perhaps after a key on the same line.  Only containers
are indented. -/
def render (d : Datum) (depth : Int) (afterKey : Bool) : Except DataError Text :=
  match d with
  | .array items => opts.assemble [] [.array items ⟨depth, afterKey, false⟩]
  | .object members => opts.assemble [] [.object members ⟨depth, afterKey, false⟩]
  | d => opts.scalarText d

/-- The text of a piece of data, plain or JSON, at the outermost level. -/
def format (d : Datum) : Except DataError Text := do
  opts.render (← d.toValue) 0 false

end Options

end JsonLayout
