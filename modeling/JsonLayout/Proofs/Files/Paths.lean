import JsonLayout.Proofs.Files.Store
import Mathlib.Data.List.Basic
import Mathlib.Tactic.SplitIfs

/-!
# Files that are read back

A file that was opened for writing is found under its path again, with what was put there.  For a
path leads through directories alone, and no file is put where a directory is.

## Main results

* `FileStore.walk_put`: a walk that reaches its end still does.
* `FileStore.read_put`: what is put where a path leads for writing is read under the path.
* `FileStore.target_put`: the path still leads there.
* `FileStore.put_put`: what is put at a place last is what is there.
-/

namespace JsonLayout

namespace FileStore

variable {files : FileStore} {location : Location} {path content content' : Bytes}

/-! ### Directories -/

theorem checkDirectory_eq_ok_iff :
    files.checkDirectory location = .ok () ↔ files.node? location = some .directory := by
  rw [checkDirectory]
  split <;> simp_all

/-- A file is put nowhere but where no directory is. -/
theorem node?_put_of_directory {other : Location}
    (h : files.node? location ≠ some .directory) (hother : files.node? other = some .directory) :
    (files.put location content).node? other = some .directory := by
  have hne : other ≠ location := by
    rintro rfl
    exact h hother
  rw [node?_put_of_ne hne, hother]

/-! ### Walks -/

theorem walk_concat (start : Location) (names : List Bytes) (name : Bytes) :
    files.walk start (names ++ [name]) = (files.walk start names).bind fun around =>
      (files.checkDirectory around).bind fun _ => enter around name := by
  induction names generalizing start with
  | nil =>
    show (files.checkDirectory start).bind (fun _ => (enter start name).bind .ok)
      = (files.checkDirectory start).bind fun _ => enter start name
    cases enter start name <;> rfl
  | cons first names ih =>
    show (files.checkDirectory start).bind (fun _ => (enter start first).bind fun next =>
      files.walk next (names ++ [name])) = _
    rw [walk]
    cases files.checkDirectory start with
    | error e => rfl
    | ok _ =>
      cases enter start first with
      | error e => rfl
      | ok next => exact ih next

/-- **A walk** that reaches its end still does when a file is put where no directory is. -/
theorem walk_put (h : files.node? location ≠ some .directory) {start last : Location}
    {names : List Bytes} (hwalk : files.walk start names = .ok last) :
    (files.put location content).walk start names = .ok last := by
  induction names generalizing start with
  | nil => exact hwalk
  | cons name names ih =>
    rw [walk] at hwalk ⊢
    cases hstart : files.checkDirectory start with
    | error e =>
      rw [hstart] at hwalk
      cases hwalk
    | ok _ =>
      have hput : (files.put location content).node? start = some .directory :=
        node?_put_of_directory h (checkDirectory_eq_ok_iff.mp hstart)
      rw [hstart] at hwalk
      rw [checkDirectory_eq_ok_iff.mpr hput]
      cases hnext : enter start name with
      | error e =>
        rw [hnext] at hwalk
        cases hwalk
      | ok next =>
        rw [hnext] at hwalk
        exact ih hwalk

/-! ### Where a path leads -/

/-- A path leads to a place through directories. -/
structure Leads (files : FileStore) (path : Bytes) (location : Location) : Prop where
  checkPath : checkPath path = .ok ()
  asksForDirectory : asksForDirectory path = false
  walk : files.walk (files.startOf path) (pathNames path) = .ok location

theorem Leads.unique {other : Location} (h : files.Leads path location)
    (hother : files.Leads path other) : location = other :=
  Except.ok.inj (h.walk.symm.trans hother.walk)

theorem Leads.put (h : files.Leads path location) {other : Location}
    (hother : files.node? other ≠ some .directory) :
    (files.put other content).Leads path location :=
  ⟨h.checkPath, h.asksForDirectory, walk_put hother h.walk⟩

/-- A file is read from where its path leads. -/
theorem read_eq_ok_iff : files.read path = .ok content ↔
    ∃ location, files.Leads path location ∧ files.node? location = some (.file content) := by
  constructor
  · intro h
    simp only [read, bind, Except.bind] at h
    cases hcheck : checkPath path with
    | error e =>
      rw [hcheck] at h
      cases h
    | ok _ =>
      cases hwalk : files.walk (files.startOf path) (pathNames path) with
      | error e =>
        rw [hcheck, hwalk] at h
        cases h
      | ok location =>
        simp only [hcheck, hwalk] at h
        -- only a file can be read, and only under a path that does not ask for a directory
        split at h
        · cases h
        · cases h
        · cases h
        · next content' hnode =>
          split_ifs at h with hasks
          cases h
          rw [Bool.not_eq_true] at hasks
          exact ⟨location, ⟨hcheck, hasks, hwalk⟩, hnode⟩
  · rintro ⟨location, ⟨hcheck, hasks, hwalk⟩, hnode⟩
    simp only [read, bind, Except.bind, hcheck, hwalk, hnode, hasks, Bool.false_eq_true, if_false]

/-- A file is written where its path leads, unless there is a directory or a file that may not be
opened. -/
theorem target_eq_ok_iff : files.target path = .ok location ↔
    files.Leads path location ∧ pathNames path ≠ [] ∧ files.node? location ≠ some .directory ∧
      files.node? location ≠ some .locked := by
  rcases List.eq_nil_or_concat (pathNames path) with hnames | ⟨around, name, hnames⟩
  · refine iff_of_false ?_ fun h => h.2.1 hnames
    simp only [target, bind, Except.bind, hnames]
    intro h
    cases hcheck : checkPath path with
    | error e =>
      rw [hcheck] at h
      cases h
    | ok _ =>
      rw [hcheck] at h
      cases h
  · rw [List.concat_eq_append] at hnames
    have hne : pathNames path ≠ [] := by simp [hnames]
    constructor
    · intro h
      simp only [target, bind, Except.bind, hnames, List.dropLast_concat, List.getLast?_concat] at h
      -- of all the ways through, only the last one gives a location
      repeat' split at h
      all_goals cases h
      next hcheck _ _ hwalk _ _ hdirectory hasks _ _ henter hnodirectory hunlocked =>
      refine ⟨⟨hcheck, Bool.not_eq_true _ ▸ hasks, ?_⟩, hne, hnodirectory, hunlocked⟩
      rw [hnames, walk_concat, hwalk]
      show (files.checkDirectory _).bind _ = _
      rw [hdirectory]
      exact henter
    · rintro ⟨⟨hcheck, hasks, hwalk⟩, -, hnodirectory, hunlocked⟩
      rw [hnames, walk_concat] at hwalk
      cases haround : files.walk (files.startOf path) around with
      | error e =>
        rw [haround] at hwalk
        cases hwalk
      | ok place =>
        rw [haround] at hwalk
        change (files.checkDirectory place).bind _ = _ at hwalk
        cases hdirectory : files.checkDirectory place with
        | error e =>
          rw [hdirectory] at hwalk
          cases hwalk
        | ok _ =>
          rw [hdirectory] at hwalk
          change enter place name = .ok location at hwalk
          simp only [target, bind, Except.bind, hnames, List.dropLast_concat,
            List.getLast?_concat, hcheck, haround, hdirectory, hasks, hwalk, Bool.false_eq_true,
            if_false]

/-! ### What was put -/

theorem putNode_putNode (nodes : List (Location × Node)) (location : Location) (node node' : Node) :
    putNode (putNode nodes location node) location node' = putNode nodes location node' := by
  induction nodes with
  | nil => simp [putNode]
  | cons e nodes ih =>
    rw [putNode, putNode]
    split_ifs with h
    · simp [putNode]
    · rw [putNode, if_neg h, ih]

/-- **What is put at a place last** is what is there. -/
theorem put_put :
    (files.put location content).put location content' = files.put location content' :=
  congrArg (fun nodes => { files with nodes }) (putNode_putNode files.nodes location _ _)

/-- **What is put where a path leads** for writing is read under the path. -/
theorem read_put (h : files.target path = .ok location) :
    (files.put location content).read path = .ok content := by
  obtain ⟨hleads, -, hdirectory, -⟩ := target_eq_ok_iff.mp h
  exact read_eq_ok_iff.mpr ⟨location, hleads.put hdirectory, node?_put_self (ne_nil_of_target h)⟩

theorem create_eq_ok_iff {opened : FileStore} : files.create path = .ok (location, opened) ↔
    files.target path = .ok location ∧ opened = files.put location [] := by
  rw [create]
  cases files.target path with
  | error e => exact iff_of_false nofun nofun
  | ok place =>
    show Except.ok (place, files.put place []) = _ ↔ _
    simp only [Except.ok.injEq, Prod.mk.injEq]
    constructor
    · rintro ⟨rfl, rfl⟩
      exact ⟨rfl, rfl⟩
    · rintro ⟨rfl, rfl⟩
      exact ⟨rfl, rfl⟩

end FileStore

end JsonLayout
