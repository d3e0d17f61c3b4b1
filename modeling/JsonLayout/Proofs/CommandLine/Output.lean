import JsonLayout.Proofs.CommandLine.Items
import JsonLayout.Proofs.CommandLine.Run
import Mathlib.Control.Monad.Basic

/-!
# Results that go to a file

A run that writes its result to a file does what the run does that prints it, and what it writes is
what the other prints.  The file is opened when there is a text, so a run that fails before that
touches nothing, not even a file that is the source as well.

## Main definitions

* `WritesWhatPrints`: how the two runs compare.

## Main results

* `Settings.writesWhatPrints_run`: the runs of settings with and without a file for the result.
* `writesWhatPrints_runProgram`: the runs of command lines with and without one.
-/

namespace JsonLayout

/-- **A run that writes** to a path next to one that prints. -/
structure WritesWhatPrints (files : FileStore) (path : Text) (printed written : Outcome) :
    Prop where
  /-- Without a text, nothing is printed, nothing is touched, and the path has no part in it. -/
  failed : printed.ending ≠ .ok 0 →
    written = printed ∧ printed.out = [] ∧ printed.files = files
  /-- If the file can be opened, it holds what is printed, and no other file is touched. -/
  opened : printed.ending = .ok 0 → (∀ c ∈ printed.out, c.isSurrogate = false) →
    ∀ location opened, files.create path.bytes = .ok (location, opened) →
      written.ending = .ok 0 ∧ written.out = [] ∧ written.err = printed.err ∧
        written.files.read path.bytes = .ok printed.out.bytes ∧
        ∀ other, other ≠ location → written.files.node? other = files.node? other
  /-- If it cannot, the run says why, and no file is touched. -/
  unopened : ∀ e, files.create path.bytes = .error e →
    printed.ending = .ok 0 ∨ printed.ending = .ok 1 →
      written.ending = .ok 1 ∧ written.out = [] ∧ written.files = files ∧
        (printed.ending = .ok 0 → written.err = cannotWrite path e)

namespace Settings

variable {s : Settings} {files : FileStore} {path : Text}

/-- A text that is written, next to the same text printed. -/
theorem writesWhatPrints_deliver (hprinting : s.printing = s) (hpath : path ≠ [])
    (hclean : ∀ c ∈ path, c.val ≠ 0 ∧ c.isSurrogate = false) (t : Text) :
    WritesWhatPrints files path (s.deliver files [] (.ok t))
      ((s.withOutput path).deliver files [] (.ok t)) := by
  obtain ⟨-, houtput, hverbose⟩ := printing_eq_self_iff.mp hprinting
  have hprinted : s.deliver files [] (.ok t)
      = { out := t.withFinalLineFeed, files, ending := .ok 0 } := by
    simp [deliver, houtput]
  have hbytes := pathBytes_eq_ok hclean
  have hwrites : (s.withOutput path).output = some path := rfl
  rw [hprinted]
  refine ⟨fun hne => absurd rfl hne, ?_, ?_⟩
  · intro _ htext location opened hcreate
    obtain ⟨htarget, -⟩ := FileStore.create_eq_ok_iff.mp hcreate
    have hcontent := contentBytes_eq_ok_iff.mpr ⟨htext, rfl⟩
    rw [deliver_of_create_eq_ok hwrites hpath hbytes hcreate hcontent]
    refine ⟨rfl, rfl, ?_, FileStore.read_put htarget, ?_⟩
    · show shownLog s.verbose _ = []
      rw [hverbose]
      rfl
    · intro other hother
      exact FileStore.node?_put_of_ne hother
  · intro e hcreate _
    rw [deliver_of_create_eq_error hwrites hpath hbytes hcreate]
    exact ⟨rfl, rfl, rfl, fun _ => rfl⟩

/-- **The runs** of settings with and without a file for the result. -/
theorem writesWhatPrints_run (hprinting : s.printing = s) (hpath : path ≠ [])
    (hclean : ∀ c ∈ path, c.val ≠ 0 ∧ c.isSurrogate = false) (input : Text) :
    WritesWhatPrints files path (s.run input files) ((s.withOutput path).run input files) := by
  have hverbose := (printing_eq_self_iff.mp hprinting).2.2
  have hresult : (s.withOutput path).result input files = s.result input files := rfl
  rw [run_eq_deliver hverbose, run_eq_deliver (s := s.withOutput path) hverbose, hresult]
  cases (s.result input files).value with
  | ok t => exact writesWhatPrints_deliver hprinting hpath hclean t
  | error e =>
    rw [deliver_error (s.withOutput path) s]
    cases e with
    | crash crash => exact ⟨fun _ => ⟨rfl, rfl, rfl⟩, nofun, fun _ _ => nofun⟩
    | message m =>
      refine ⟨fun _ => ⟨rfl, rfl, rfl⟩, nofun, fun _ _ _ => ⟨rfl, rfl, rfl, nofun⟩⟩

end Settings

/-! ### Command lines -/

/-- **A command line** with a path for the result, wherever it stands among the items, next to the
one without. -/
theorem writesWhatPrints_runProgram (before after : List Item)
    (hitems : ∀ i ∈ before ++ after, i.isFile = true ∨ i.isLayout = true)
    (hfiles : (before ++ after).countP Item.isFile ≤ 1) (path : Operand) (hpath : path.text ≠ [])
    (hclean : ∀ c ∈ path.text, c.val ≠ 0 ∧ c.isSurrogate = false) (input : Text)
    (files : FileStore) :
    WritesWhatPrints files path.text
      (runProgram ((before ++ after).flatMap Item.words) input files)
      (runProgram ((before ++ .output path :: after).flatMap Item.words) input files) := by
  have hprinted := Settings.ofArguments_words (before ++ after) hfiles
  have hwritten := Settings.ofArguments_words (before ++ .output path :: after) (by
    rw [List.countP_append, List.countP_cons_of_neg (by exact nofun), ← List.countP_append]
    exact hfiles)
  have hafter : ∀ i ∈ after, i.isFile = true ∨ i.isLayout = true := by
    intro i hi
    exact hitems i (List.mem_append_right before hi)
  rw [Settings.ofItems_output path hafter] at hwritten
  cases hsettings : Settings.ofItems (before ++ after) with
  | error stop =>
    rw [hsettings] at hprinted hwritten
    rw [runProgram_of_stop hprinted, runProgram_of_stop hwritten]
    obtain ⟨message, rfl⟩ := Settings.exists_usage_of_ofItems hsettings
    exact ⟨fun _ => ⟨rfl, rfl, rfl⟩, nofun, fun _ _ => nofun⟩
  | ok s =>
    rw [hsettings] at hprinted hwritten
    have hprinting := Settings.printing_of_ofItems hitems hsettings
    have hinteractive := (Settings.printing_eq_self_iff.mp hprinting).1
    rw [runProgram_of_settings hprinted hinteractive, runProgram_of_settings hwritten hinteractive]
    exact Settings.writesWhatPrints_run hprinting hpath hclean _

/-- What is printed without a path is in the file with it, which is a new one here. -/
theorem read_eq_printed_of_new_file :
    (runProgram ["--escape"] "[1]" {}).ending = .ok 0 ∧
      (runProgram ["-o", "o", "--escape"] "[1]" {}).files.read ("o" : Text).bytes
        = .ok (runProgram ["--escape"] "[1]" {}).out.bytes := by
  have hwrites := writesWhatPrints_runProgram [] [.escape] (by decide) (by decide)
    (.ofText "o" (by decide)) (by decide) (by decide) "[1]" {}
  have hending : (runProgram ["--escape"] "[1]" {}).ending = .ok 0 := by
    decide +kernel
  have hclean : ∀ c ∈ (runProgram ["--escape"] "[1]" {}).out, c.isSurrogate = false := by
    decide +kernel
  exact ⟨hending, (hwrites.opened hending hclean _ _ (by rfl)).2.2.2.1⟩

/-- A path that cannot be opened is not looked at where the indentation has no room in memory: such
a run ends with no exit code. -/
theorem not_ends_with_one_of_unopened :
    ¬ ∀ (before after : List Item) (path : Operand) (input : Text) (files : FileStore),
      (∀ i ∈ before ++ after, i.isFile = true ∨ i.isLayout = true) →
      (before ++ after).countP Item.isFile ≤ 1 → path.text ≠ [] →
      (∀ c ∈ path.text, c.val ≠ 0 ∧ c.isSurrogate = false) →
      ∀ e, files.create path.text.bytes = .error e →
        (runProgram ((before ++ .output path :: after).flatMap Item.words) input files).ending
          = .ok 1 := by
  intro h
  have hone := h [.indent (.ofText "9223372036854775808" (by decide))] [] (.ofText "d" (by decide))
    "[]" { nodes := [([("d" : Text).bytes], .directory)] } (by decide) (by decide) (by decide)
    (by decide) .isDirectory (by rfl)
  have hcrash : (runProgram ["--indent", "9223372036854775808", "-o", "d"] "[]"
      { nodes := [([("d" : Text).bytes], .directory)] }).ending
      = .error (.unanswered .indentOverflow) := by
    decide +kernel
  cases hcrash.symm.trans hone

end JsonLayout
