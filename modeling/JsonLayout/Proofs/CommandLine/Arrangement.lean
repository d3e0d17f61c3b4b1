import JsonLayout.Proofs.CommandLine.Spelling
import JsonLayout.CommandLine.Run
import Mathlib.Data.List.Nodup

/-!
# How items are arranged

Items of different kinds set different things, so two of them that stand side by side may change
places, and from there any arrangement of a command line that asks for nothing twice may be changed
into any other.  The only item that can fail is the indentation, and whatever goes around it leaves
the indentation alone.

## Main definitions

* `Item.kind`: what an item is about.
* `CommandLine`: what a command line asks for that asks for nothing twice.
* `CommandLine.IsWritten`: arguments for a command line, in any order and in any spelling.
* `CommandLine.settings`: what a command line leads to.

## Main results

* `Settings.ofItems_perm`: items of different kinds may be put in any order.
* `CommandLine.ofArguments_eq`: the settings that arguments for a command line ask for.
* `CommandLine.runProgram_eq_of_isWritten`: the program does the same, however a command line is
  written.
-/

namespace JsonLayout

/-! ### Kinds -/

namespace Item

/-- What an item is about: one of the options, or the file to be formatted. -/
def kind (i : Item) : Option Choice := i.option?.map Prod.fst

/-- What an item that cannot fail sets is left alone by items of other kinds. -/
theorem exists_commutes {i : Item} (hi : i.kind ≠ some .indent) :
    ∃ f, (∀ s, i.apply s = .ok (f s)) ∧ ∀ j : Item, j.kind ≠ i.kind → j.Commutes f := by
  cases i with
  | indent width => exact absurd rfl hi
  | _ =>
    refine ⟨_, fun s => rfl, fun j hj => ?_⟩
    cases j with
    | indent width => exact Settings.commutes_indent width fun s n => rfl
    | _ => first | exact absurd rfl hj | exact fun s => rfl

theorem bind_apply_of_commutes {i j : Item} {f : Settings → Settings}
    (hi : ∀ s, i.apply s = .ok (f s)) (hj : j.Commutes f) (s : Settings) :
    (i.apply s).bind j.apply = (j.apply s).bind i.apply := by
  rw [hi, Except.bind, hj]
  cases j.apply s with
  | error stop => rfl
  | ok s => exact (hi s).symm

/-- **Items of different kinds** may be applied in either order. -/
theorem bind_apply_comm {i j : Item} (h : i.kind ≠ j.kind) (s : Settings) :
    (i.apply s).bind j.apply = (j.apply s).bind i.apply := by
  by_cases hi : i.kind = some .indent
  · obtain ⟨f, hf, hcommutes⟩ := exists_commutes (i := j) (hi ▸ h.symm)
    exact (bind_apply_of_commutes hf (hcommutes i h) s).symm
  · obtain ⟨f, hf, hcommutes⟩ := exists_commutes hi
    exact bind_apply_of_commutes hf (hcommutes j h.symm) s

theorem isFile_eq_true_iff {i : Item} : i.isFile = true ↔ i.kind = none := by
  cases i <;> exact ⟨fun h => by cases h <;> rfl, fun h => by cases h <;> rfl⟩

theorem countP_isFile_le_one {items : List Item} (h : (items.map kind).Nodup) :
    items.countP isFile ≤ 1 := by
  have hcount := List.nodup_iff_count_le_one.mp h none
  rw [List.count, List.countP_map] at hcount
  refine le_of_eq_of_le (List.countP_congr fun i _ => ?_) hcount
  rw [isFile_eq_true_iff, Function.comp_apply, beq_iff_eq]

end Item

namespace Settings

/-- **Items of different kinds** may be put in any order. -/
theorem applyAll_perm {items items' : List Item} (h : items.Perm items')
    (hkinds : (items.map Item.kind).Nodup) (s : Settings) :
    s.applyAll items = s.applyAll items' := by
  induction h generalizing s with
  | nil => rfl
  | cons i _ ih =>
    rw [List.map_cons, List.nodup_cons] at hkinds
    rw [applyAll, applyAll]
    exact congrArg _ (funext (ih hkinds.2))
  | swap i j items =>
    rw [List.map_cons, List.map_cons, List.nodup_cons, List.mem_cons, not_or] at hkinds
    have hcomm := Item.bind_apply_comm hkinds.1.1 s
    have hbind : ∀ k l : Item, s.applyAll (k :: l :: items)
        = ((k.apply s).bind l.apply).bind fun s => s.applyAll items := by
      intro k l
      rw [applyAll]
      cases k.apply s <;> rfl
    rw [hbind, hbind, hcomm]
  | trans h _ ih ih' =>
    have hnodup := (h.map Item.kind).nodup_iff.mp hkinds
    exact (ih hkinds s).trans (ih' hnodup s)

theorem ofItems_perm {items items' : List Item} (h : items.Perm items')
    (hkinds : (items.map Item.kind).Nodup) : ofItems items = ofItems items' := by
  rw [ofItems, ofItems, applyAll_perm h hkinds]

end Settings

/-! ### Command lines -/

/-- What a command line asks for that asks for nothing twice. -/
structure CommandLine where
  file : Option Operand := none
  output : Option Operand := none
  indent : Option Operand := none
  escape : Bool := false
  allowNan : Bool := false
  verbose : Bool := false
  interactive : Bool := false

/-- An item that is there or not. -/
def Item.onlyIf (i : Item) (b : Bool) : List Item := if b then [i] else []

namespace CommandLine

/-- The items of a command line that cannot fail. -/
def safeItems (c : CommandLine) : List Item :=
  c.file.toList.map .file ++ c.output.toList.map .output ++ Item.escape.onlyIf c.escape ++
    Item.allowNan.onlyIf c.allowNan ++ Item.verbose.onlyIf c.verbose ++
    Item.interactive.onlyIf c.interactive

/-- The items of a command line, in one of their orders. -/
def items (c : CommandLine) : List Item := c.safeItems ++ c.indent.toList.map .indent

/-- **Arguments for a command line**: its items in any order, each of them in any spelling. -/
def IsWritten (c : CommandLine) (arguments : List Text) : Prop :=
  ∃ items : List Item, items.Perm c.items ∧ Item.AreWritten items arguments

/-- The settings that a command line leads to with an indentation. -/
def settingsWith (c : CommandLine) (width : Int) : Settings where
  file := (c.file.map Operand.text).getD [hyphen]
  interactive := c.interactive
  output := c.output.map Operand.text
  indent := some width
  escape := c.escape
  allowNan := c.allowNan
  verbose := c.verbose

/-- **What a command line leads to.** -/
def settings (c : CommandLine) : Except Stop Settings :=
  match c.indent with
  | none => .ok (c.settingsWith 2)
  | some width =>
    match width.text.toInt? with
    | none => .error (.ofOption .indent (("invalid int value: " : Text) ++ width.text.quoted))
    | some n =>
      if n < 0 then .error (.usage "--indent must be >= 0") else .ok (c.settingsWith n)

/-- The number that a command line asks for as the indentation. -/
def width? (c : CommandLine) : Option Int := c.indent.elim (some 2) fun width => width.text.toInt?

/-- An indentation that is none below zero leads to settings. -/
theorem settings_of_width {c : CommandLine} {n : Nat} (h : c.width? = some (n : Int)) :
    c.settings = .ok (c.settingsWith n) := by
  rw [width?] at h
  rw [settings]
  cases hindent : c.indent with
  | none =>
    rw [hindent] at h
    rw [← Option.some.inj h]
  | some width =>
    rw [hindent] at h
    change width.text.toInt? = some (n : Int) at h
    simp only [h, if_neg (Int.not_lt.mpr (Int.natCast_nonneg n))]

variable (c : CommandLine)

theorem nodup_map_kind_items : (c.items.map Item.kind).Nodup := by
  have hflag (i : Item) (b : Bool) : ((i.onlyIf b).map Item.kind).Sublist [i.kind] := by
    cases b with
    | false => exact List.nil_sublist _
    | true => exact .refl _
  have hoperand (f : Operand → Item) (k : Option Choice) (hf : ∀ o, (f o).kind = k)
      (o : Option Operand) : ((o.toList.map f).map Item.kind).Sublist [k] := by
    cases o with
    | none => exact List.nil_sublist _
    | some o =>
      rw [Option.toList_some, List.map_singleton, List.map_singleton, hf]
  have hsublist : (c.items.map Item.kind).Sublist ([none] ++ [some .output] ++ [some .escape] ++
      [some .allowNan] ++ [some .verbose] ++ [some .interactive] ++ [some .indent]) := by
    simp only [items, safeItems, List.map_append]
    refine .append (.append (.append (.append (.append (.append ?_ ?_) ?_) ?_) ?_) ?_) ?_
    · exact hoperand .file none (fun o => rfl) c.file
    · exact hoperand .output _ (fun o => rfl) c.output
    · exact hflag .escape c.escape
    · exact hflag .allowNan c.allowNan
    · exact hflag .verbose c.verbose
    · exact hflag .interactive c.interactive
    · exact hoperand .indent _ (fun o => rfl) c.indent
  exact hsublist.nodup (by decide)

end CommandLine

namespace Settings

theorem applyAll_file (s : Settings) (o : Option Operand) :
    s.applyAll (o.toList.map .file) = .ok { s with file := (o.map Operand.text).getD s.file } := by
  cases o <;> rfl

theorem applyAll_output (s : Settings) (o : Option Operand) :
    s.applyAll (o.toList.map .output)
      = .ok { s with output := (o.map Operand.text).or s.output } := by
  cases o with
  | none => rfl
  | some path =>
    rw [Option.toList_some, List.map_singleton, applyAll, apply_output]
    rfl

theorem applyAll_onlyIf {i : Item} {f : Settings → Settings} (h : ∀ s, i.apply s = .ok (f s))
    (s : Settings) (b : Bool) : s.applyAll (i.onlyIf b) = .ok (if b then f s else s) := by
  cases b with
  | false => rfl
  | true =>
    rw [Item.onlyIf, if_pos rfl, applyAll, h]
    rfl

end Settings

namespace CommandLine

theorem applyAll_safeItems (c : CommandLine) :
    ({} : Settings).applyAll c.safeItems = .ok (c.settingsWith 2) := by
  have hescape := Settings.applyAll_onlyIf (i := .escape) fun s => rfl
  have hallowNan := Settings.applyAll_onlyIf (i := .allowNan) fun s => rfl
  have hverbose := Settings.applyAll_onlyIf (i := .verbose) fun s => rfl
  have hinteractive := Settings.applyAll_onlyIf (i := .interactive) fun s => rfl
  simp only [safeItems, Settings.applyAll_append, Settings.applyAll_file, Settings.applyAll_output,
    hescape, hallowNan, hverbose, hinteractive, Except.bind, Option.or_none]
  obtain ⟨file, output, indent, escape, allowNan, verbose, interactive⟩ := c
  cases escape <;> cases allowNan <;> cases verbose <;> cases interactive <;> rfl

/-- The settings that the items of a command line lead to. -/
theorem ofItems_items (c : CommandLine) : Settings.ofItems c.items = c.settings := by
  rw [Settings.ofItems, items, Settings.applyAll_append, applyAll_safeItems, settings]
  cases c.indent with
  | none => rfl
  | some width =>
    have hvalue : Settings.valueOf width.text = some width.text :=
      if_neg width.text_ne_doubleHyphen
    simp only [Option.toList_some, List.map_singleton, Settings.applyAll, Item.apply,
      Settings.choose, hvalue]
    cases hn : width.text.toInt? with
    | none => rfl
    | some n => simp [Except.bind, settingsWith]

variable {c : CommandLine} {arguments : List Text}

/-- **The settings that arguments for a command line ask for.** -/
theorem ofArguments_eq (h : c.IsWritten arguments) :
    Settings.ofArguments arguments = c.settings := by
  obtain ⟨items, hperm, hwritten⟩ := h
  have hkinds := (hperm.map Item.kind).nodup_iff.mpr c.nodup_map_kind_items
  have hfiles := Item.countP_isFile_le_one hkinds
  rw [Settings.ofArguments_of_areWritten hwritten hfiles, Settings.ofItems_perm hperm hkinds,
    ofItems_items]

/-- **However a command line is written**, its arguments ask for the same settings, and the program
does the same with them. -/
theorem runProgram_eq_of_isWritten {arguments' : List Text} (h : c.IsWritten arguments)
    (h' : c.IsWritten arguments') :
    Settings.ofArguments arguments = c.settings ∧ Settings.ofArguments arguments' = c.settings ∧
      ∀ input files, runProgram arguments input files = runProgram arguments' input files := by
  have hsettings := ofArguments_eq h
  have hsettings' := ofArguments_eq h'
  refine ⟨hsettings, hsettings', fun input files => ?_⟩
  rw [runProgram, runProgram, hsettings, hsettings']

/-- A command line with everything in it except the shell. -/
def sample : CommandLine where
  file := some (.ofText "a.json" (by decide))
  output := some (.ofText "b" (by decide))
  indent := some (.ofText "4" (by decide))
  escape := true
  allowNan := true
  verbose := true

theorem isWritten_sample : sample.IsWritten
    ["a.json", "-o", "b", "--escape", "--allow-nan", "-v", "--indent", "4"] := by
  have houtput : Choice.IsCalled .output "-o" := by decide
  have hindent : Choice.IsCalled .indent "--indent" := by decide
  refine ⟨_, .refl _, [["a.json"], ["-o", "b"], ["--escape"], ["--allow-nan"], ["-v"],
    ["--indent", "4"]], ?_, rfl⟩
  exact .cons (.file _) (.cons (.apart (i := .output _) rfl houtput) (.cons (.flag rfl (by decide))
    (.cons (.flag rfl (by decide)) (.cons (.flag rfl (by decide))
      (.cons (.apart (i := .indent _) rfl hindent) .nil)))))

theorem isWritten_sample_reverse : sample.IsWritten
    ["--ind=4", "--verb", "--allow", "--esc", "--out=b", "a.json"] := by
  have houtput : Choice.IsCalled .output "--out" := by decide
  have hindent : Choice.IsCalled .indent "--ind" := by decide
  refine ⟨_, sample.items.reverse_perm, [["--ind=4"], ["--verb"], ["--allow"], ["--esc"],
    ["--out=b"], ["a.json"]], ?_, rfl⟩
  exact .cons (.attached (i := .indent _) rfl hindent) (.cons (.flag rfl (by decide))
    (.cons (.flag rfl (by decide)) (.cons (.flag rfl (by decide))
      (.cons (.attached (i := .output _) rfl houtput) (.cons (.file _) .nil)))))

/-- Another order, shorter names and equals signs make no difference. -/
theorem runProgram_sample_eq : sample.settings = .ok (sample.settingsWith 4) ∧
    sample.IsWritten ["a.json", "-o", "b", "--escape", "--allow-nan", "-v", "--indent", "4"] ∧
    sample.IsWritten ["--ind=4", "--verb", "--allow", "--esc", "--out=b", "a.json"] ∧
    ∀ input files,
      runProgram ["a.json", "-o", "b", "--escape", "--allow-nan", "-v", "--indent", "4"] input files
        = runProgram ["--ind=4", "--verb", "--allow", "--esc", "--out=b", "a.json"] input files :=
  ⟨by decide, isWritten_sample, isWritten_sample_reverse,
    (runProgram_eq_of_isWritten isWritten_sample isWritten_sample_reverse).2.2⟩

end CommandLine

end JsonLayout
