import JsonLayout.CommandLine.Settings
import Mathlib.Logic.Basic
import Mathlib.Tactic.SplitIfs

/-!
# Command lines put together from items

A command line without `--` that names at most one file is a sequence of items: the file, an option,
or an option with its value behind it.  Each item changes the settings by itself, so what a command
line asks for is what its items do one after another.

## Main definitions

* `Operand`: an argument that is taken for no option.
* `Item`, `Item.words`: what a command line asks for, and how it is written.
* `Item.apply`, `Settings.ofItems`: what items do to settings, and what they lead to.

## Main results

* `Settings.ofArguments_words`: the settings of a command line are those that its items lead to.
* `Settings.ofItems_insert`: an item may be left until the others have been applied.
* `Settings.exists_usage_of_ofItems`: items that cannot be used are a usage error.
-/

namespace JsonLayout

/-! ### Items -/

/-- An argument that is taken for no option, wherever it stands. -/
structure Operand where
  text : Text
  classify_eq : Word.classify text = .ok (.plain text)

/-- An argument that does not begin with a hyphen. -/
def Operand.ofText (t : Text) (h : t.head? ≠ some hyphen) : Operand := ⟨t, if_pos h⟩

/-- What a command line asks for, in one or two arguments. -/
inductive Item where
  | file (path : Operand)
  | output (path : Operand)
  | indent (width : Operand)
  | escape
  | allowNan
  | verbose
  | interactive

namespace Item

/-- The arguments of an item. -/
def words : Item → List Text
  | .file path => [path.text]
  | .output path => ["-o", path.text]
  | .indent width => ["--indent", width.text]
  | .escape => ["--escape"]
  | .allowNan => ["--allow-nan"]
  | .verbose => ["-v"]
  | .interactive => ["-i"]

/-- The arguments of an item, classified. -/
def classified : Item → List Word
  | .file path => [.plain path.text]
  | .output path => [.option .output "-o" none, .plain path.text]
  | .indent width => [.option .indent "--indent" none, .plain width.text]
  | .escape => [.option .escape "--escape" none]
  | .allowNan => [.option .allowNan "--allow-nan" none]
  | .verbose => [.option .verbose "-v" none]
  | .interactive => [.option .interactive "-i" none]

/-- What an item does to settings. -/
def apply (s : Settings) : Item → Except Stop Settings
  | .file path => .ok { s with file := path.text }
  | .output path => s.choose path.text .output
  | .indent width => s.choose width.text .indent
  | .escape => s.choose [] .escape
  | .allowNan => s.choose [] .allowNan
  | .verbose => s.choose [] .verbose
  | .interactive => s.choose [] .interactive

/-- Whether an item names the file to be formatted. -/
def isFile : Item → Bool
  | .file _ => true
  | _ => false

/-- Whether an item is about the layout. -/
def isLayout : Item → Bool
  | .indent _ | .escape | .allowNan => true
  | _ => false

/-- Whether an item leaves alone what a function sets. -/
def Commutes (i : Item) (f : Settings → Settings) : Prop := ∀ s, i.apply (f s) = (i.apply s).map f

end Item

/-- What items do to settings, one after another. -/
def Settings.applyAll (s : Settings) : List Item → Except Stop Settings
  | [] => .ok s
  | i :: items => (i.apply s).bind fun s => s.applyAll items

/-- The settings that items lead to, if the indentation they ask for is none below zero. -/
def Settings.ofItems (items : List Item) : Except Stop Settings :=
  (({} : Settings).applyAll items).bind fun s =>
    if s.indent.any (· < 0) then .error (.usage "--indent must be >= 0") else .ok s

/-! ### Classification -/

/-- The argument behind which there are no options is none itself. -/
theorem Word.ne_doubleHyphen_of_classify {t : Text} {word : Word} (h : classify t = .ok word) :
    t ≠ doubleHyphen := by
  rintro rfl
  -- all the names that begin with two hyphens fit it
  have hambiguous : ∃ message, classify doubleHyphen = .error message := ⟨_, rfl⟩
  obtain ⟨message, hmessage⟩ := hambiguous
  rw [hmessage] at h
  cases h

theorem Operand.text_ne_doubleHyphen (o : Operand) : o.text ≠ doubleHyphen :=
  Word.ne_doubleHyphen_of_classify o.classify_eq

theorem Word.ofArguments_cons {t : Text} {word : Word} (h : classify t = .ok word)
    (ts : List Text) : ofArguments (t :: ts) = (ofArguments ts).map (word :: ·) := by
  rw [ofArguments, if_neg (ne_doubleHyphen_of_classify h), h]
  cases ofArguments ts <;> rfl

theorem Word.ofArguments_operand (o : Operand) (ts : List Text) :
    ofArguments (o.text :: ts) = (ofArguments ts).map (.plain o.text :: ·) :=
  ofArguments_cons o.classify_eq ts

theorem Item.ofArguments_words (i : Item) (ts : List Text) :
    Word.ofArguments (i.words ++ ts) = (Word.ofArguments ts).map (i.classified ++ ·) := by
  cases i with
  | file path => exact Word.ofArguments_operand path ts
  | output path =>
    refine (Word.ofArguments_cons rfl (path.text :: ts)).trans ?_
    rw [Word.ofArguments_operand]
    cases Word.ofArguments ts <;> rfl
  | indent width =>
    refine (Word.ofArguments_cons rfl (width.text :: ts)).trans ?_
    rw [Word.ofArguments_operand]
    cases Word.ofArguments ts <;> rfl
  | _ => exact Word.ofArguments_cons rfl ts

/-- **All arguments of items** are classified, item by item. -/
theorem Item.ofArguments_flatMap_words (items : List Item) :
    Word.ofArguments (items.flatMap words) = .ok (items.flatMap classified) := by
  induction items with
  | nil => rfl
  | cons i items ih =>
    rw [List.flatMap_cons, ofArguments_words, ih]
    rfl

/-! ### Settings -/

namespace Settings

theorem chooseAll_singleton (s : Settings) (choice : Choice) (value : Text) :
    s.chooseAll [(choice, value)] = s.choose value choice := by
  rw [chooseAll]
  cases s.choose value choice <;> rfl

theorem take_option {choice : Choice} (h : choice.takesValue = false) (p : Progress) (name : Text)
    (words : List Word) :
    take p (.option choice name none :: words)
      = (p.settings.choose [] choice).bind fun s => take { p with settings := s } words := by
  simp only [take, clusterOf, h, Bool.false_eq_true, if_false, ← chooseAll_singleton]
  rfl

theorem take_option_value {choice : Choice} (h : choice.takesValue) (p : Progress) (name t : Text)
    (words : List Word) :
    take p (.option choice name none :: .plain t :: words)
      = (p.settings.choose t choice).bind fun s => take { p with settings := s } words := by
  simp only [take, clusterOf, h, if_true, ← chooseAll_singleton]
  rfl

/-- The first argument that is no option names the file. -/
theorem take_plain {p : Progress} (h : p.named = false) {words : List Word}
    (hwords : words.head? ≠ some .separator) (t : Text) :
    take p (.plain t :: words)
      = take { p with settings := { p.settings with file := t }, named := true } words := by
  rw [take]
  · simp only [h, Bool.false_eq_true, if_false]
    cases words with
    | nil => rfl
    | cons word words =>
      cases word with
      | separator => exact absurd rfl hwords
      | _ => rfl

/-- What is made of an item's words. -/
theorem take_classified {i : Item} {p : Progress} (hi : i.isFile = true → p.named = false)
    {words : List Word} (hwords : words.head? ≠ some .separator) :
    take p (i.classified ++ words)
      = (i.apply p.settings).bind fun s =>
        take { p with settings := s, named := p.named || i.isFile } words := by
  by_cases hfile : i.isFile = true
  · have hnamed := hi hfile
    cases i with
    | file path =>
      rw [Item.classified, List.cons_append, List.nil_append, take_plain hnamed hwords, hnamed]
      rfl
    | _ => cases hfile
  · rw [Bool.not_eq_true] at hfile
    rw [hfile, Bool.or_false]
    cases i with
    | file path => cases hfile
    | output path => exact take_option_value rfl p "-o" path.text words
    | indent width => exact take_option_value rfl p "--indent" width.text words
    | _ => exact take_option rfl p _ words

/-- No item is written as the argument behind which there are no options. -/
theorem head?_flatMap_classified (items : List Item) :
    (items.flatMap Item.classified).head? ≠ some .separator := by
  cases items with
  | nil => exact nofun
  | cons i items => cases i <;> exact nofun

theorem take_flatMap_classified (items : List Item) (p : Progress)
    (hfiles : items.countP Item.isFile ≤ if p.named then 0 else 1) :
    ∃ named, take p (items.flatMap Item.classified)
      = (p.settings.applyAll items).map fun s => { p with settings := s, named } := by
  induction items generalizing p with
  | nil => exact ⟨p.named, rfl⟩
  | cons i items ih =>
    rw [List.countP_cons] at hfiles
    have hi : i.isFile = true → p.named = false := by
      intro hfile
      cases hnamed : p.named with
      | false => rfl
      | true =>
        rw [if_pos hfile, if_pos hnamed] at hfiles
        omega
    rw [List.flatMap_cons, take_classified hi (head?_flatMap_classified items), applyAll]
    cases i.apply p.settings with
    | error stop => exact ⟨false, rfl⟩
    | ok s =>
      refine ih { p with settings := s, named := p.named || i.isFile } ?_
      cases hfile : i.isFile with
      | false =>
        rw [hfile] at hfiles
        rw [Bool.or_false]
        exact hfiles
      | true =>
        rw [hfile, hi hfile] at hfiles
        rw [Bool.or_true]
        simp only [if_true, Bool.false_eq_true, if_false] at hfiles ⊢
        omega

/-- **The settings of a command line** that names at most one file are those that its items lead
to. -/
theorem ofArguments_words (items : List Item) (hfiles : items.countP Item.isFile ≤ 1) :
    ofArguments (items.flatMap Item.words) = ofItems items := by
  obtain ⟨named, htake⟩ := take_flatMap_classified items {} hfiles
  rw [ofArguments, ofItems, Item.ofArguments_flatMap_words]
  show (take {} (items.flatMap Item.classified) >>= _) = _
  rw [htake]
  cases ({} : Settings).applyAll items <;> rfl

/-! ### The order of items -/

/-- Settings with a file that the result goes to. -/
def withOutput (path : Text) (s : Settings) : Settings := { s with output := some path }

/-- Settings with which the result is printed, and nothing else. -/
def printing (s : Settings) : Settings :=
  { s with output := none, interactive := false, verbose := false }

theorem printing_eq_self_iff {s : Settings} :
    s.printing = s ↔ s.interactive = false ∧ s.output = none ∧ s.verbose = false := by
  obtain ⟨file, interactive, output, indent, escape, allowNan, verbose⟩ := s
  simp [printing, eq_comm]

theorem apply_output (path : Operand) (s : Settings) :
    (Item.output path).apply s = .ok (s.withOutput path.text) := by
  rw [Item.apply, choose, valueOf, if_neg path.text_ne_doubleHyphen]
  rfl

theorem commutes_indent {f : Settings → Settings} (width : Operand)
    (h : ∀ s n, { f s with indent := n } = f { s with indent := n }) :
    (Item.indent width).Commutes f := by
  intro s
  rw [Item.apply, Item.apply, choose, choose]
  cases valueOf width.text with
  | none => exact congrArg Except.ok (h s none)
  | some t =>
    dsimp only
    cases t.toInt? with
    | none => rfl
    | some n => exact congrArg Except.ok (h s (some n))

theorem commutes_withOutput {i : Item} (h : i.isFile = true ∨ i.isLayout = true) (path : Text) :
    i.Commutes (withOutput path) := by
  cases i with
  | indent width => exact commutes_indent width fun s n => rfl
  | file path | escape | allowNan => exact fun s => rfl
  | _ => rcases h with h | h <;> cases h

theorem commutes_printing {i : Item} (h : i.isFile = true ∨ i.isLayout = true) :
    i.Commutes printing := by
  cases i with
  | indent width => exact commutes_indent width fun s n => rfl
  | file path | escape | allowNan => exact fun s => rfl
  | _ => rcases h with h | h <;> cases h

theorem applyAll_append (s : Settings) (items items' : List Item) :
    s.applyAll (items ++ items') = (s.applyAll items).bind fun s => s.applyAll items' := by
  induction items generalizing s with
  | nil => rfl
  | cons i items ih =>
    rw [List.cons_append, applyAll, applyAll]
    cases i.apply s with
    | error stop => rfl
    | ok s => exact ih s

/-- What no item touches may be set before or after all of them. -/
theorem applyAll_commute {f : Settings → Settings} {items : List Item}
    (h : ∀ i ∈ items, i.Commutes f) (s : Settings) :
    (f s).applyAll items = (s.applyAll items).map f := by
  induction items generalizing s with
  | nil => rfl
  | cons i items ih =>
    rw [List.forall_mem_cons] at h
    rw [applyAll, applyAll, h.1 s]
    cases i.apply s with
    | error stop => rfl
    | ok s => exact ih h.2 s

/-- One more item may be left until the others have been applied. -/
theorem applyAll_insert {i : Item} {f : Settings → Settings} (hi : ∀ s, i.apply s = .ok (f s))
    {before after : List Item} (hafter : ∀ i ∈ after, i.Commutes f) (s : Settings) :
    s.applyAll (before ++ i :: after) = (s.applyAll (before ++ after)).map f := by
  rw [applyAll_append, applyAll_append]
  cases s.applyAll before with
  | error stop => rfl
  | ok s =>
    show (i.apply s).bind _ = _
    rw [hi]
    exact applyAll_commute hafter s

/-- **One more item**, wherever it stands, sets what it sets behind the others. -/
theorem ofItems_insert {i : Item} {f : Settings → Settings} (hi : ∀ s, i.apply s = .ok (f s))
    (hindent : ∀ s, (f s).indent = s.indent) {before after : List Item}
    (hafter : ∀ i ∈ after, i.Commutes f) :
    ofItems (before ++ i :: after) = (ofItems (before ++ after)).map f := by
  rw [ofItems, ofItems, applyAll_insert hi hafter]
  cases ({} : Settings).applyAll (before ++ after) with
  | error stop => rfl
  | ok s =>
    show (if (f s).indent.any (· < 0) then _ else _) = Except.map f (if _ then _ else _)
    rw [hindent]
    split <;> rfl

/-- What is set at first and not touched stays. -/
theorem eq_of_applyAll {f : Settings → Settings} {items : List Item}
    (h : ∀ i ∈ items, i.Commutes f) {s s' : Settings} (hs : f s = s)
    (happly : s.applyAll items = .ok s') : f s' = s' := by
  have hcommute := applyAll_commute h s
  rw [hs, happly] at hcommute
  exact (Except.ok.inj hcommute).symm

theorem applyAll_of_ofItems {items : List Item} {s : Settings} (h : ofItems items = .ok s) :
    ({} : Settings).applyAll items = .ok s := by
  rw [ofItems] at h
  cases happly : ({} : Settings).applyAll items with
  | error stop =>
    rw [happly] at h
    cases h
  | ok s' =>
    rw [happly] at h
    change (if _ then _ else _) = _ at h
    split at h
    · cases h
    · exact h

/-- Items about the source and the layout leave it at printing. -/
theorem printing_of_ofItems {items : List Item}
    (h : ∀ i ∈ items, i.isFile = true ∨ i.isLayout = true) {s : Settings}
    (hs : ofItems items = .ok s) : s.printing = s :=
  eq_of_applyAll (fun i hi => commutes_printing (h i hi)) rfl (applyAll_of_ofItems hs)

/-- A file for the result may be named before the other items or behind them. -/
theorem ofItems_output {before after : List Item} (path : Operand)
    (hafter : ∀ i ∈ after, i.isFile = true ∨ i.isLayout = true) :
    ofItems (before ++ .output path :: after)
      = (ofItems (before ++ after)).map (withOutput path.text) := by
  exact ofItems_insert (apply_output path) (fun s => rfl) fun i hi =>
    commutes_withOutput (hafter i hi) _

end Settings

/-! ### Items that cannot be used -/

theorem Item.apply_ne_help (s : Settings) (i : Item) : i.apply s ≠ .error .help := by
  cases i with
  | indent width =>
    rw [apply, Settings.choose]
    repeat' split
    all_goals exact nofun
  | _ => exact nofun

theorem Settings.applyAll_ne_help (s : Settings) (items : List Item) :
    s.applyAll items ≠ .error .help := by
  induction items generalizing s with
  | nil => exact nofun
  | cons i items ih =>
    rw [applyAll]
    cases happly : i.apply s with
    | error stop =>
      rintro ⟨⟩
      exact i.apply_ne_help s happly
    | ok s => exact ih s

/-- **Items that cannot be used** are a usage error. -/
theorem Settings.exists_usage_of_ofItems {items : List Item} {stop : Stop}
    (h : ofItems items = .error stop) : ∃ message, stop = .usage message := by
  rw [ofItems] at h
  cases happly : ({} : Settings).applyAll items with
  | error cause =>
    rw [happly] at h
    cases h
    cases stop with
    | help => exact absurd happly (applyAll_ne_help {} items)
    | usage message => exact ⟨message, rfl⟩
  | ok s =>
    rw [happly] at h
    change (if _ then _ else _) = _ at h
    split_ifs at h
    cases h
    exact ⟨_, rfl⟩

end JsonLayout
