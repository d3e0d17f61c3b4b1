import JsonLayout.Proofs.Datum.ToValue
import JsonLayout.Proofs.Reading.Complete
import JsonLayout.Reading.Plain

/-!
# Reading in two steps

Reading builds JSON values at once.  It might as well build plain data first and convert them
afterwards: a reader does the same whatever it builds, so the data it builds are those of the value,
and they are converted to it.

The reader is followed by what it holds.  A map that takes what is built of one type to what is
built of another takes each state to one in which the same happens.

## Main definitions

* `JsonLike.Hom`: such a map.
* `Json.parsed`: the plain data that are built of a text with a JSON value.

## Main results

* `Expecting.step_convert`, `readFrom_convert`: a reader with converted contents.
* `toValue_parseText`: reading for plain data, and the conversion of these.
-/

namespace JsonLayout

/-! ### Converting what is built -/

/-- A map that takes what a reader builds of one type to what it builds of another. -/
structure JsonLike.Hom {α β : Type} [JsonLike α] [JsonLike β] (f : α → β) : Prop where
  null : f null = null
  bool (b : Bool) : f (bool b) = bool b
  number (n : Number) : f (number n) = number n
  string (s : Text) : f (string s) = string s
  array (items : List α) : f (array items) = array (items.map f)
  object (members : List (Text × α)) :
    f (object members) = object (members.map fun m => (m.1, f m.2))

section Convert

variable {α β : Type} {f : α → β}

/-- An open container with everything in it converted. -/
def Open.convert (f : α → β) : Open α → Open β
  | .array items => .array (items.map f)
  | .object members key => .object (members.map fun m => (m.1, f m.2)) key

namespace Expecting

/-- A state with everything in it converted. -/
def convert (f : α → β) : Expecting α → Expecting β
  | .value around => .value (around.map (Open.convert f))
  | .item around => .item (around.map (Open.convert f))
  | .firstKey around => .firstKey (around.map (Open.convert f))
  | .key around members =>
    .key (around.map (Open.convert f)) (members.map fun m => (m.1, f m.2))
  | .colon around members k =>
    .colon (around.map (Open.convert f)) (members.map fun m => (m.1, f m.2)) k
  | .done a around => .done (f a) (around.map (Open.convert f))

theorem enter_convert (around : List (Open α)) (inside : Expecting α) :
    enter (around.map (Open.convert f)) (inside.convert f)
      = (enter around inside).map (convert f) := by
  rw [enter, enter, List.length_map]
  split <;> rfl

theorem finish_convert (state : Expecting α) (rest : Text) (noToken : NoToken) :
    (state.convert f).finish rest noToken = (state.finish rest noToken).map f := by
  cases state with
  | done a around =>
    cases around with
    | nil =>
      rw [convert, List.map_nil, finish, finish]
      split <;> rfl
    | cons => rfl
  | _ => rfl

variable [JsonLike α] [JsonLike β]

theorem beginValue_convert (hf : JsonLike.Hom f) (around : List (Open α)) (rest : Text)
    (token : Token) :
    beginValue (around.map (Open.convert f)) rest token
      = (beginValue around rest token).map (convert f) := by
  cases token with
  | openArray => exact enter_convert around (.item around)
  | openObject => exact enter_convert around (.firstKey around)
  | string s => simp only [beginValue, Except.map, convert, hf.string]
  | null => simp only [beginValue, Except.map, convert, hf.null]
  | bool b => simp only [beginValue, Except.map, convert, hf.bool]
  | number n => simp only [beginValue, Except.map, convert, hf.number]
  | _ => rfl

theorem continueAfter_convert (hf : JsonLike.Hom f) (a : α) (rest : Text)
    (around : List (Open α)) (token : Token) :
    continueAfter (f a) rest (around.map (Open.convert f)) token
      = (continueAfter a rest around token).map (convert f) := by
  match around with
  | [] => rfl
  | .array items :: around =>
    cases token with
    | closeArray =>
      simp only [List.map_cons, Open.convert, continueAfter, Except.map, convert, hf.array,
        List.map_reverse]
    | _ => rfl
  | .object members k :: around =>
    cases token with
    | closeObject =>
      simp only [List.map_cons, Open.convert, continueAfter, Except.map, convert, hf.object,
        List.map_reverse]
    | _ => rfl

/-- **One token** leads from converted contents to converted contents. -/
theorem step_convert (hf : JsonLike.Hom f) (state : Expecting α) (rest : Text) (token : Token) :
    (state.convert f).step rest token = (state.step rest token).map (convert f) := by
  cases state with
  | value around => exact beginValue_convert hf around rest token
  | item around =>
    by_cases hclose : token = .closeArray
    · subst hclose
      simp only [convert, step, Except.map, hf.array, List.map_nil]
    · rw [convert, step_item hclose, step_item hclose]
      exact beginValue_convert hf (.array [] :: around) rest token
  | firstKey around =>
    cases token with
    | closeObject => simp only [convert, step, Except.map, hf.object, List.map_nil]
    | _ => rfl
  | key around members => cases token <;> rfl
  | colon around members k => cases token <;> rfl
  | done a around => exact continueAfter_convert hf a rest around token

end Expecting

variable [JsonLike α] [JsonLike β]

/-- **A whole run** from converted contents has a converted result. -/
theorem readFrom_convert (hf : JsonLike.Hom f) (state : Expecting α) (t : Text) :
    readFrom (state.convert f) t = (readFrom state t).map f := by
  fun_induction readFrom state t with
  | case1 state t t' noToken hscan =>
    rw [readFrom_eq, hscan]
    exact state.finish_convert t' noToken
  | case2 state t t' token rest hscan refusal hstep =>
    rw [readFrom_eq, hscan]
    show ((state.convert f).step t' token).bind _ = _
    rw [Expecting.step_convert hf, hstep]
    rfl
  | case3 state t t' token rest hscan next hstep hlt hle ih =>
    rw [readFrom_eq, hscan]
    show ((state.convert f).step t' token).bind _ = _
    rw [Expecting.step_convert hf, hstep]
    exact ih

/-- What a reader builds of one type is converted to what it builds of the other. -/
theorem readAs_convert (hf : JsonLike.Hom f) (t : Text) : readAs β t = (readAs α t).map f := by
  rw [readAs, readAs]
  split
  · rfl
  · have hrun : readFrom (.value [] : Expecting β) t = (readFrom (.value []) t).map f :=
      readFrom_convert hf (.value []) t
    rw [hrun]
    cases readFrom (.value [] : Expecting α) t <;> rfl

end Convert

/-! ### Plain data -/

mutual

/-- The plain data that are built of a text with a JSON value. -/
def Json.parsed : Json → Datum
  | .null => .nothing
  | .bool b => .bool b
  | .number n => n.toDatum
  | .string s => .str s
  | .array items => .list (itemsParsed items)
  | .object members => .dict (membersParsed members)

/-- The plain data of the items of an array. -/
def itemsParsed : List Json → List Datum
  | [] => []
  | j :: items => j.parsed :: itemsParsed items

/-- The entries of a table with the members of an object. -/
def membersParsed : List (Text × Json) → List (Datum × Datum)
  | [] => []
  | (k, j) :: members => (.str k, j.parsed) :: membersParsed members

end

theorem itemsParsed_eq_map (items : List Json) : itemsParsed items = items.map Json.parsed := by
  induction items with
  | nil => rfl
  | cons j items ih => rw [itemsParsed, ih, List.map_cons]

theorem membersParsed_eq_map (members : List (Text × Json)) :
    membersParsed members = members.map fun m => (.str m.1, m.2.parsed) := by
  induction members with
  | nil => rfl
  | cons m members ih => rw [membersParsed, ih, List.map_cons]

namespace Json

theorem hom_parsed : JsonLike.Hom parsed where
  null := by rfl
  bool b := by rfl
  number n := by rfl
  string s := by rfl
  array items := congrArg Datum.list (itemsParsed_eq_map items)
  object members := by
    refine (congrArg Datum.dict (membersParsed_eq_map members)).trans ?_
    simp only [JsonLike.object, List.map_map, Function.comp_def]

/-- The plain data of a value stand for it. -/
theorem standsFor_parsed (j : Json) : Datum.StandsFor j.parsed j.toDatum := by
  induction j using Json.induction with
  | null => exact .nothing
  | bool b => exact .bool b
  | string s => exact .str s
  | number n =>
    cases n with
    | int n => exact .int n
    | double x => exact .float x
  | array items ih =>
    rw [parsed, toDatum, itemsParsed_eq_map, itemsToData_eq_map]
    refine .list ?_
    rw [List.forall₂_map_left_iff, List.forall₂_map_right_iff, List.forall₂_same]
    exact ih
  | object members ih =>
    rw [parsed, toDatum, membersParsed_eq_map, membersToData_eq_map]
    refine .dict ?_ ?_
    · rw [List.forall₂_map_left_iff, List.forall₂_map_right_iff, List.forall₂_same]
      exact fun _ _ => rfl
    · rw [List.forall₂_map_left_iff, List.forall₂_map_right_iff, List.forall₂_same]
      exact ih

end Json

/-- **Reading in two steps.**  A text that is read has plain data, which are converted to its value;
a text that is not has the same error either way. -/
theorem toValue_parseText (t : Text) :
    (∃ j d, readText t = .ok j ∧ parseText t = .ok d ∧ d.toValue = .ok j.toDatum) ∨
      ∃ e, readText t = .error e ∧ parseText t = .error e := by
  have hparse : parseText t = (readText t).map Json.parsed := readAs_convert Json.hom_parsed t
  cases hread : readText t with
  | ok j =>
    rw [hread] at hparse
    exact .inl ⟨j, j.parsed, rfl, hparse, Datum.toValue_eq_ok_iff.mpr j.standsFor_parsed⟩
  | error e =>
    rw [hread] at hparse
    exact .inr ⟨e, rfl, hparse⟩

end JsonLayout
