import JsonLayout.Proofs.CommandLine.Items
import Mathlib.Data.List.Basic
import Mathlib.Data.List.TakeWhile

/-!
# How items are written

An option may be called by any of its names, or by the beginning of a long name that no other name
has.  Its value may be the argument behind it, stand behind an equals sign, or follow a short name
at once.  Whatever is chosen, the arguments ask for the same.

## Main definitions

* `Choice.IsCalled`: what an option may be called.
* `Item.IsWritten`, `Item.AreWritten`: arguments for an item, and for items one after another.

## Main results

* `Word.classify_of_isCalled`, `Word.classify_attached`, `Word.classify_joined`: the class of an
  option, however it is written.
* `Settings.ofArguments_of_areWritten`: the settings that arguments ask for are those of the items
  that they are written for.
-/

namespace JsonLayout

/-- The character between a name and a value. -/
def equalsSign : CodePoint := '='

theorem Text.startsWith_iff {t start : Text} :
    t.startsWith start = true ↔ ∃ rest, t = start ++ rest := by
  rw [startsWith, Option.isSome_iff_exists]
  exact exists_congr fun rest => after?_eq_some_iff

/-! ### Names -/

namespace Choice

/-- **What an option may be called**: one of its names, or the beginning of a long name that no
other name has. -/
def IsCalled (choice : Choice) (name : Text) : Prop :=
  (name, choice) ∈ names ∨
    name.startsWith doubleHyphen ∧
      ∃ e ∈ names, e.2 = choice ∧ ∀ f ∈ names, f.1.startsWith name ↔ f = e

instance (choice : Choice) (name : Text) : Decidable (choice.IsCalled name) :=
  inferInstanceAs (Decidable (_ ∨ _ ∧ ∃ e ∈ names, e.2 = choice ∧
    ∀ f ∈ names, f.1.startsWith name ↔ f = e))

/-- The names have hyphens in front and are long enough to be told from other arguments, and no
equals sign is in them. -/
theorem name_facts : ∀ e ∈ names,
    e.1.head? = some hyphen ∧ e.1.length ≠ 1 ∧ equalsSign ∉ e.1 := by
  decide

/-- Names are unique. -/
theorem ofName?_of_mem : ∀ e ∈ names, ofName? e.1 = some e.2 := by
  decide

theorem ofName?_eq_some_iff {choice : Choice} {name : Text} :
    ofName? name = some choice ↔ (name, choice) ∈ names := by
  constructor
  · intro h
    obtain ⟨e, he, rfl⟩ := Option.map_eq_some_iff.mp h
    have hname := List.find?_some he
    obtain rfl : e.1 = name := of_decide_eq_true hname
    exact List.mem_of_find?_eq_some he
  · exact ofName?_of_mem (name, choice)

/-- A text with an equals sign in it is no name. -/
theorem ofName?_of_equalsSign {t : Text} (h : equalsSign ∈ t) : ofName? t = none := by
  cases hname : ofName? t with
  | none => rfl
  | some choice => exact absurd h (name_facts _ (ofName?_eq_some_iff.mp hname)).2.2

theorem filter_eq_singleton : ∀ e ∈ names, (names.filter fun f => f = e) = [e] := by
  decide

namespace IsCalled

variable {choice : Choice} {name : Text}

/-- A name by which an option is called begins one of the names in full. -/
theorem exists_append (h : choice.IsCalled name) : ∃ rest, (name ++ rest, choice) ∈ names := by
  rcases h with hmem | ⟨-, e, he, rfl, hunique⟩
  · exact ⟨[], (List.append_nil name).symm ▸ hmem⟩
  · obtain ⟨rest, hrest⟩ := Text.startsWith_iff.mp ((hunique e he).mpr rfl)
    exact ⟨rest, hrest ▸ he⟩

theorem equalsSign_not_mem (h : choice.IsCalled name) : equalsSign ∉ name := by
  obtain ⟨rest, hrest⟩ := h.exists_append
  exact fun hmem => (name_facts _ hrest).2.2 (List.mem_append_left rest hmem)

theorem head?_eq (h : choice.IsCalled name) : name.head? = some hyphen := by
  rcases h with hmem | ⟨hlong, -⟩
  · exact (name_facts _ hmem).1
  · obtain ⟨rest, rfl⟩ := Text.startsWith_iff.mp hlong
    rfl

theorem length_ne_one (h : choice.IsCalled name) : name.length ≠ 1 := by
  rcases h with hmem | ⟨hlong, -⟩
  · exact (name_facts _ hmem).2.1
  · obtain ⟨rest, rfl⟩ := Text.startsWith_iff.mp hlong
    rw [List.length_append, doubleHyphen, List.length_cons, List.length_singleton]
    omega

/-- A name in full is no beginning of another option's name. -/
theorem ofName?_or (h : choice.IsCalled name) :
    ofName? name = some choice ∨
      ofName? name = none ∧ name.startsWith doubleHyphen ∧
        ∃ e ∈ names, e.2 = choice ∧ ∀ f ∈ names, f.1.startsWith name ↔ f = e := by
  rcases h with hmem | ⟨hlong, e, he, rfl, hunique⟩
  · exact .inl (ofName?_eq_some_iff.mpr hmem)
  · cases hname : ofName? name with
    | none => exact .inr ⟨rfl, hlong, e, he, rfl, hunique⟩
    | some other =>
      have hself : name.startsWith name := Text.startsWith_iff.mpr ⟨[], (List.append_nil name).symm⟩
      have heq := (hunique _ (ofName?_eq_some_iff.mp hname)).mp hself
      rw [← heq]
      exact .inl rfl

end IsCalled

end Choice

/-! ### Classification -/

namespace Word

variable {choice : Choice} {name value t : Text}

theorem ne_equals_of_mem (h : equalsSign ∉ t) :
    ∀ c ∈ t, decide (c ≠ CodePoint.ofChar '=') = true :=
  fun _ hc => decide_eq_true (ne_of_mem_of_not_mem hc h)

theorem cutAtEquals_of_not_mem (h : equalsSign ∉ t) : cutAtEquals t = none := by
  rw [cutAtEquals, List.dropWhile_eq_nil_iff.mpr (ne_equals_of_mem h)]

theorem cutAtEquals_append (h : equalsSign ∉ name) (value : Text) :
    cutAtEquals (name ++ equalsSign :: value) = some (name, value) := by
  have hname := ne_equals_of_mem h
  rw [cutAtEquals, List.dropWhile_append_of_pos hname, List.takeWhile_append_of_pos hname]
  simp [equalsSign]

/-- An argument that is the full name of no option, by the options that it may be short for. -/
theorem classify_of_candidates {attached : Option Text} (hhead : t.head? = some hyphen)
    (hname : Choice.ofName? t = none) (hlength : t.length ≠ 1)
    (hcut : ∀ p, cutAtEquals t = some p → Choice.ofName? p.1 = none)
    (hcandidates : candidates t = [(choice, name, attached)]) :
    classify t = .ok (.option choice name attached) := by
  have hbind : ∀ f : Text × Text → Option (Choice × Text × Text),
      (∀ p, Choice.ofName? p.1 = none → f p = none) → (cutAtEquals t).bind f = none :=
    fun f hf => Option.bind_eq_none_iff.mpr fun p hp => hf p (hcut p hp)
  simp only [classify, hhead, ne_eq, not_true_eq_false, if_false, hname, hlength]
  rw [hbind _ fun p hp => by simp only [hp, Option.map_none], hcandidates]

/-- The beginning of a long name has one option to be short for, with whatever is attached. -/
theorem candidates_of_startsWith {e : Text × Choice} {start : Text} {attached : Option Text}
    (ht : t.startsWith doubleHyphen) (he : e ∈ Choice.names)
    (hunique : ∀ f ∈ Choice.names, f.1.startsWith start ↔ f = e)
    (hcut : cutAtEquals t = attached.map fun value => (start, value))
    (hstart : attached = none → start = t) : candidates t = [(e.2, e.1, attached)] := by
  have hfilter : (Choice.names.filter fun f => Text.startsWith f.1 start) = [e] := by
    rw [← Choice.filter_eq_singleton e he]
    refine List.filter_congr fun f hf => ?_
    rw [Bool.eq_iff_iff, decide_eq_true_iff]
    exact hunique f hf
  rw [candidates, if_pos ht, hcut]
  cases attached with
  | none =>
    obtain rfl := hstart rfl
    dsimp only [Option.map_none]
    rw [hfilter]
    rfl
  | some value =>
    dsimp only [Option.map_some]
    rw [hfilter]
    rfl

/-- **An option by itself.** -/
theorem classify_of_isCalled (h : choice.IsCalled name) :
    ∃ found, classify name = .ok (.option choice found none) := by
  rcases h.ofName?_or with hname | ⟨hname, hlong, e, he, rfl, hunique⟩
  · refine ⟨name, ?_⟩
    simp only [classify, h.head?_eq, ne_eq, not_true_eq_false, if_false, hname]
  · have hcut := cutAtEquals_of_not_mem h.equalsSign_not_mem
    refine ⟨e.1, classify_of_candidates h.head?_eq hname h.length_ne_one ?_ ?_⟩
    · rw [hcut]
      exact nofun
    · exact candidates_of_startsWith hlong he hunique hcut fun _ => rfl

/-- **An option with a value** behind an equals sign. -/
theorem classify_attached (h : choice.IsCalled name) (value : Text) :
    ∃ found, classify (name ++ equalsSign :: value) = .ok (.option choice found (some value)) := by
  have hne : name ≠ [] := by
    rintro rfl
    cases h.head?_eq
  have hhead : (name ++ equalsSign :: value).head? = some hyphen := by
    rw [List.head?_append_of_ne_nil _ hne, h.head?_eq]
  have hfull : Choice.ofName? (name ++ equalsSign :: value) = none :=
    Choice.ofName?_of_equalsSign (List.mem_append_right name List.mem_cons_self)
  have hlength : (name ++ equalsSign :: value).length ≠ 1 := by
    have := List.length_pos_iff.mpr hne
    rw [List.length_append, List.length_cons]
    omega
  have hcut := cutAtEquals_append h.equalsSign_not_mem value
  rcases h.ofName?_or with hname | ⟨hname, hlong, e, he, rfl, hunique⟩
  · refine ⟨name, ?_⟩
    simp only [classify, hhead, ne_eq, not_true_eq_false, if_false, hfull, hlength, hcut,
      Option.bind_some, hname, Option.map_some]
  · refine ⟨e.1, classify_of_candidates hhead hfull hlength ?_ ?_⟩
    · rw [hcut]
      rintro p ⟨⟩
      exact hname
    · have hstart : (name ++ equalsSign :: value).startsWith doubleHyphen := by
        obtain ⟨rest, rfl⟩ := Text.startsWith_iff.mp hlong
        exact Text.startsWith_iff.mpr ⟨_, List.append_assoc ..⟩
      exact candidates_of_startsWith hstart he hunique hcut nofun

/-- A short name begins no other name. -/
theorem Choice.short_facts : ∀ e ∈ Choice.names, e.1.length = 2 →
    e.1 ≠ doubleHyphen ∧ (Choice.names.filter fun f => f.1 = e.1) = [e] ∧
      ∀ f ∈ Choice.names, f.1.take 2 = e.1 → f.1 = e.1 := by
  decide

/-- Nothing that begins with a short name and goes on is a name. -/
theorem Choice.ofName?_append_of_short (h : (name, choice) ∈ Choice.names)
    (hshort : name.length = 2) (ht : t ≠ []) : Choice.ofName? (name ++ t) = none := by
  cases hname : Choice.ofName? (name ++ t) with
  | none => rfl
  | some other =>
    obtain ⟨-, -, hunique⟩ := Choice.short_facts _ h hshort
    have heq := hunique _ (Choice.ofName?_eq_some_iff.mp hname) (List.take_left' hshort)
    exact absurd (List.append_right_eq_self.mp heq) ht

theorem fst_of_cutAtEquals {p : Text × Text} (h : cutAtEquals t = some p) :
    p.1 = t.takeWhile fun c => c ≠ CodePoint.ofChar '=' := by
  rw [cutAtEquals] at h
  split at h
  · cases h
  · cases h
    rfl

/-- **An option with a value** right behind its short name. -/
theorem classify_joined (h : (name, choice) ∈ Choice.names) (hshort : name.length = 2)
    (hvalue : value ≠ []) (hequals : value.head? ≠ some equalsSign) :
    classify (name ++ value) = .ok (.option choice name (some value)) := by
  obtain ⟨hhyphens, hfilter, -⟩ := Choice.short_facts _ h hshort
  obtain ⟨hhead, -, hequalsSign⟩ := Choice.name_facts _ h
  have hne : name ≠ [] := List.ne_nil_of_length_pos (by omega)
  have hlength : (name ++ value).length ≠ 1 := by
    rw [List.length_append]
    omega
  refine classify_of_candidates ?_ (Choice.ofName?_append_of_short h hshort hvalue) hlength ?_ ?_
  · rw [List.head?_append_of_ne_nil _ hne, hhead]
  · intro p hp
    rw [fst_of_cutAtEquals hp, List.takeWhile_append_of_pos (ne_equals_of_mem hequalsSign)]
    refine Choice.ofName?_append_of_short h hshort ?_
    obtain ⟨c, rest, rfl⟩ := List.exists_cons_of_ne_nil hvalue
    have hc : c ≠ CodePoint.ofChar '=' := fun heq => hequals (congrArg some heq)
    simp [hc]
  · have hlong : ¬ (name ++ value).startsWith doubleHyphen = true := by
      rw [Text.startsWith_iff]
      rintro ⟨rest, hrest⟩
      have heq := congrArg (List.take 2) hrest
      rw [List.take_left' hshort] at heq
      exact hhyphens heq
    rw [candidates, if_neg hlong, List.take_left' hshort, List.drop_left' hshort, hfilter]
    rfl

end Word

/-! ### Items -/

namespace Item

/-- The option of an item, with its value if it takes one. -/
def option? : Item → Option (Choice × Option Operand)
  | .file _ => none
  | .output path => some (.output, some path)
  | .indent width => some (.indent, some width)
  | .escape => some (.escape, none)
  | .allowNan => some (.allowNan, none)
  | .verbose => some (.verbose, none)
  | .interactive => some (.interactive, none)

/-- **Arguments for an item.** -/
inductive IsWritten : Item → List Text → Prop where
  /-- The file by itself. -/
  | file (path : Operand) : IsWritten (.file path) [path.text]
  /-- An option without a value. -/
  | flag {i : Item} {choice : Choice} {name : Text} (option : i.option? = some (choice, none))
      (called : choice.IsCalled name) : IsWritten i [name]
  /-- An option and its value as two arguments. -/
  | apart {i : Item} {choice : Choice} {value : Operand} {name : Text}
      (option : i.option? = some (choice, some value)) (called : choice.IsCalled name) :
      IsWritten i [name, value.text]
  /-- An option and its value with an equals sign between them. -/
  | attached {i : Item} {choice : Choice} {value : Operand} {name : Text}
      (option : i.option? = some (choice, some value)) (called : choice.IsCalled name) :
      IsWritten i [name ++ equalsSign :: value.text]
  /-- An option with a short name, and its value right behind that. -/
  | joined {i : Item} {choice : Choice} {value : Operand} {name : Text}
      (option : i.option? = some (choice, some value)) (mem : (name, choice) ∈ Choice.names)
      (short : name.length = 2) (value_ne : value.text ≠ [])
      (head_ne : value.text.head? ≠ some equalsSign) : IsWritten i [name ++ value.text]

/-- **Arguments for items**, one after another. -/
def AreWritten (items : List Item) (arguments : List Text) : Prop :=
  ∃ parts, List.Forall₂ IsWritten items parts ∧ parts.flatten = arguments

/-- Words that have the meaning of an item. -/
structure IsMeant (i : Item) (words : List Word) : Prop where
  /-- They do not begin with the argument behind which there are no options. -/
  head : ∃ word rest, words = word :: rest ∧ word ≠ .separator
  /-- They are taken as the item is in its usual form. -/
  take_eq : ∀ p rest, Settings.take p (words ++ rest) = Settings.take p (i.classified ++ rest)

end Item

theorem Settings.take_option_attached {choice : Choice} (h : choice.takesValue) (p : Progress)
    (name t : Text) (words : List Word) :
    take p (.option choice name (some t) :: words)
      = (p.settings.choose t choice).bind fun s => take { p with settings := s } words := by
  have hcluster : clusterOf choice name (some t) = .ok { chosen := [(choice, t)] } := by
    rw [clusterOf]
    cases t <;> rw [cluster, if_pos h]
  rw [take, hcluster, ← chooseAll_singleton]
  rfl

namespace Item

variable {i : Item} {choice : Choice}

theorem isMeant_flag (h : i.option? = some (choice, none)) (found : Text) :
    i.IsMeant [.option choice found none] := by
  refine ⟨⟨_, [], rfl, nofun⟩, fun p rest => ?_⟩
  cases i with
  | file | output | indent => cases h
  | _ =>
    cases h
    exact (Settings.take_option rfl p found rest).trans (Settings.take_option rfl p _ rest).symm

theorem isMeant_apart {value : Operand} (h : i.option? = some (choice, some value))
    (found : Text) : i.IsMeant [.option choice found none, .plain value.text] := by
  refine ⟨⟨_, _, rfl, nofun⟩, fun p rest => ?_⟩
  cases i with
  | output | indent =>
    cases h
    exact (Settings.take_option_value rfl p found value.text rest).trans
      (Settings.take_option_value rfl p _ value.text rest).symm
  | _ => cases h

theorem isMeant_attached {value : Operand} (h : i.option? = some (choice, some value))
    (found : Text) : i.IsMeant [.option choice found (some value.text)] := by
  refine ⟨⟨_, [], rfl, nofun⟩, fun p rest => ?_⟩
  cases i with
  | output | indent =>
    cases h
    exact (Settings.take_option_attached rfl p found value.text rest).trans
      (Settings.take_option_value rfl p _ value.text rest).symm
  | _ => cases h

/-- **Arguments for an item** are classified as words that mean it. -/
theorem IsWritten.exists_isMeant {arguments : List Text} (h : i.IsWritten arguments) :
    ∃ words, i.IsMeant words ∧
      ∀ ts, Word.ofArguments (arguments ++ ts) = (Word.ofArguments ts).map (words ++ ·) := by
  cases h with
  | file path =>
    exact ⟨[.plain path.text], ⟨⟨_, [], rfl, nofun⟩, fun _ _ => rfl⟩,
      Word.ofArguments_cons path.classify_eq⟩
  | flag option called =>
    obtain ⟨found, hfound⟩ := Word.classify_of_isCalled called
    exact ⟨_, isMeant_flag option found, Word.ofArguments_cons hfound⟩
  | @apart _ choice value name option called =>
    obtain ⟨found, hfound⟩ := Word.classify_of_isCalled called
    refine ⟨_, isMeant_apart option found, fun ts => ?_⟩
    show Word.ofArguments (name :: value.text :: ts) = _
    rw [Word.ofArguments_cons hfound, Word.ofArguments_cons value.classify_eq]
    cases Word.ofArguments ts <;> rfl
  | @attached _ choice value name option called =>
    obtain ⟨found, hfound⟩ := Word.classify_attached called value.text
    exact ⟨_, isMeant_attached option found, Word.ofArguments_cons hfound⟩
  | @joined _ choice value name option mem short value_ne head_ne =>
    have hname := Word.classify_joined mem short value_ne head_ne
    exact ⟨_, isMeant_attached option name, Word.ofArguments_cons hname⟩

end Item

/-! ### Settings -/

namespace Settings

/-- What follows an item is taken alike if it is taken alike by itself. -/
theorem take_classified_congr {words words' : List Word} (h : ∀ p, take p words = take p words')
    (hhead : words.head? ≠ some .separator) (hhead' : words'.head? ≠ some .separator) (i : Item)
    (p : Progress) : take p (i.classified ++ words) = take p (i.classified ++ words') := by
  by_cases hi : i.isFile = true → p.named = false
  · rw [take_classified hi hhead, take_classified hi hhead']
    simp only [h]
  · -- a second file is left over
    obtain ⟨hfile, hnamed⟩ := Classical.not_imp.mp hi
    rw [Bool.not_eq_false] at hnamed
    cases i with
    | file path =>
      show take p (.plain path.text :: words) = take p (.plain path.text :: words')
      rw [take, take, if_pos hnamed, if_pos hnamed, h]
    | _ => cases hfile

/-- The words for items are taken as the items are in their usual form. -/
theorem take_of_forall₂ {items : List Item} {parts : List (List Text)}
    (h : List.Forall₂ Item.IsWritten items parts) :
    ∃ words, Word.ofArguments parts.flatten = .ok words ∧ words.head? ≠ some .separator ∧
      ∀ p, take p words = take p (items.flatMap Item.classified) := by
  induction h with
  | nil => exact ⟨[], rfl, nofun, fun p => rfl⟩
  | @cons i arguments items parts hi _ ih =>
    obtain ⟨words, hmeant, harguments⟩ := hi.exists_isMeant
    obtain ⟨rest, hrest, hhead, htake⟩ := ih
    obtain ⟨word, more, rfl, hword⟩ := hmeant.head
    refine ⟨word :: more ++ rest, ?_, ?_, fun p => ?_⟩
    · rw [List.flatten_cons, harguments, hrest]
      rfl
    · exact fun heq => hword (Option.some.inj heq)
    · rw [hmeant.take_eq, List.flatMap_cons]
      exact take_classified_congr htake hhead (head?_flatMap_classified items) i p

/-- **However items are written**, they lead to the same settings. -/
theorem ofArguments_of_areWritten {items : List Item} {arguments : List Text}
    (h : Item.AreWritten items arguments) (hfiles : items.countP Item.isFile ≤ 1) :
    ofArguments arguments = ofItems items := by
  obtain ⟨parts, hparts, rfl⟩ := h
  obtain ⟨words, hwords, -, htake⟩ := take_of_forall₂ hparts
  rw [← ofArguments_words items hfiles, ofArguments, ofArguments, hwords,
    Item.ofArguments_flatMap_words]
  show (take {} words >>= _) = (take {} (items.flatMap Item.classified) >>= _)
  rw [htake]

end Settings

end JsonLayout
