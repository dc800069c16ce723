import Mathlib.Data.List.Sort
import JsxAudit.Project.Selection
import JsxAudit.Proofs.Storage.Places

/-!
Which files are selected.

The selected files are files of the disk, each once and in the order of their paths. They are the
same on two disks that differ in files which are not wanted (`select_of_agree`).
-/

namespace JsxAudit.Project

open Data Storage

variable {d e : Disk} {directory target : String} {included excluded : List Value}
  {paths : List String} {test : String → Except Fault Bool}

/-! ### Tests that may fail -/

/-- The kept paths are those that satisfy the test, which is defined on all of them. -/
theorem keep_eq_ok {items : List (String × String)} (h : keep test items = .ok paths) :
    (∀ item ∈ items, ∃ b, test item.2 = .ok b) ∧ paths.Sublist (items.map (·.1)) ∧
      ∀ path, path ∈ paths ↔ ∃ relative, (path, relative) ∈ items ∧ test relative = .ok true := by
  induction items generalizing paths with
  | nil =>
    cases h
    exact ⟨nofun, .refl _, fun path => by simp⟩
  | cons item rest ih =>
    obtain ⟨first, relative⟩ := item
    unfold keep at h
    cases wanted : test relative with
    | error fault =>
      rw [wanted] at h
      cases h
    | ok b =>
      cases more : keep test rest with
      | error fault =>
        rw [wanted, more] at h
        cases h
      | ok others =>
        rw [wanted, more] at h
        obtain ⟨total, sub, mem⟩ := ih more
        have all : ∀ item ∈ (first, relative) :: rest, ∃ b, test item.2 = .ok b := by
          intro item inside
          rcases List.mem_cons.mp inside with rfl | inside
          · exact ⟨b, wanted⟩
          · exact total item inside
        cases b with
        | true =>
          cases h
          refine ⟨all, sub.cons_cons first, fun path => ?_⟩
          rw [if_pos rfl, List.mem_cons, mem]
          constructor
          · rintro (rfl | ⟨r, inside, passed⟩)
            · exact ⟨relative, List.mem_cons_self, wanted⟩
            · exact ⟨r, List.mem_cons_of_mem _ inside, passed⟩
          · rintro ⟨r, inside, passed⟩
            rcases List.mem_cons.mp inside with eq | inside
            · cases eq
              exact .inl rfl
            · exact .inr ⟨r, inside, passed⟩
        | false =>
          cases h
          refine ⟨all, sub.cons first, fun path => ?_⟩
          rw [if_neg (by decide), mem]
          constructor
          · rintro ⟨r, inside, passed⟩
            exact ⟨r, List.mem_cons_of_mem _ inside, passed⟩
          · rintro ⟨r, inside, passed⟩
            rcases List.mem_cons.mp inside with eq | inside
            · cases eq
              rw [wanted] at passed
              cases passed
            · exact ⟨r, inside, passed⟩

theorem keep_total {items : List (String × String)}
    (total : ∀ item ∈ items, ∃ b, test item.2 = .ok b) : ∃ paths, keep test items = .ok paths := by
  induction items with
  | nil => exact ⟨[], rfl⟩
  | cons item rest ih =>
    obtain ⟨b, wanted⟩ := total item List.mem_cons_self
    obtain ⟨others, more⟩ := ih fun x mem => total x (List.mem_cons_of_mem _ mem)
    refine ⟨if b then item.1 :: others else others, ?_⟩
    unfold keep
    rw [wanted, more]
    rfl

/-! ### Files below a folder -/

theorem mem_filesBelow (tree : d.IsTree) {folder path relative : String} :
    (path, relative) ∈ filesBelow d folder ↔
      (d.fileAt? path).isSome ∧ Path.below? folder path = some relative := by
  unfold filesBelow
  rw [List.mem_filterMap]
  constructor
  · rintro ⟨⟨q, bytes⟩, mem, found⟩
    obtain ⟨rest, below, eq⟩ := Option.map_eq_some_iff.mp found
    cases eq
    exact ⟨Option.isSome_of_eq_some (tree.mem_files.mp mem), below⟩
  · rintro ⟨file, below⟩
    obtain ⟨bytes, file⟩ := Option.isSome_iff_exists.mp file
    exact ⟨(path, bytes), tree.mem_files.mpr file, by simp [below]⟩

theorem filesBelow_ascending (d : Disk) (folder : String) :
    ((filesBelow d folder).map (·.1)).Pairwise (· < ·) := by
  rw [List.pairwise_map, filesBelow]
  refine d.files_ascending.filterMap _ ?_
  rintro ⟨p, _⟩ ⟨q, _⟩ before ⟨_, _⟩ found ⟨_, _⟩ found'
  obtain ⟨_, -, eq⟩ := Option.map_eq_some_iff.mp found
  obtain ⟨_, -, eq'⟩ := Option.map_eq_some_iff.mp found'
  cases eq
  cases eq'
  exact before

/-! ### Selected files -/

/-- A path in normal form leads to a file exactly if a file stands there. -/
theorem hasFile_resolve (tree : d.IsTree) :
    d.hasFile (Path.resolve directory target) =
      (d.fileAt? (Path.resolve directory target)).isSome := by
  unfold Disk.hasFile Disk.find?
  cases found : d.locate? (Path.resolve directory target) with
  | none =>
    cases file : d.fileAt? (Path.resolve directory target) with
    | none => rfl
    | some bytes => cases found.symm.trans (tree.locate?_file file)
  | some place =>
    rw [Disk.locate?_resolve found, Option.bind_some, Disk.fileAt?]
    cases d.at? (Path.resolve directory target) with
    | none => rfl
    | some x => cases x <;> rfl

/-- The selection of a file that is named itself. -/
theorem select_of_file (file : d.hasFile (Path.resolve directory target) = true) :
    select d directory target included excluded =
      (matchesSome (Text.pathName (Path.resolve directory target)) included).map fun wanted =>
        if wanted then [Path.resolve directory target] else [] := by
  unfold select
  simp only [file, if_true]
  cases matchesSome (Text.pathName (Path.resolve directory target)) included <;> rfl

theorem paths_of_select_file (file : d.hasFile (Path.resolve directory target) = true)
    (h : select d directory target included excluded = .ok paths) :
    ∃ wanted, matchesSome (Text.pathName (Path.resolve directory target)) included = .ok wanted ∧
      paths = if wanted then [Path.resolve directory target] else [] := by
  rw [select_of_file file] at h
  cases wanted : matchesSome (Text.pathName (Path.resolve directory target)) included with
  | error fault =>
    rw [wanted] at h
    cases h
  | ok b =>
    rw [wanted] at h
    cases h
    exact ⟨b, rfl, rfl⟩

/-- The selection of the files below a folder. -/
theorem select_of_folder (folder : d.hasFile (Path.resolve directory target) = false) :
    select d directory target included excluded =
      keep (isSelected included excluded) (filesBelow d (Path.resolve directory target)) := by
  unfold select
  simp only [folder, Bool.false_eq_true, if_false]

/-- Ascending paths are all different. -/
theorem nodup_of_ascending {paths : List String} (ascending : paths.Pairwise (· < ·)) :
    paths.Nodup := by
  refine ascending.imp ?_
  rintro a _ before rfl
  exact String.lt_irrefl a before

/-- Whether selection wants a file: by its name if it is the target, else by its path from there. -/
def wants (directory target : String) (included excluded : List Value) (path : String) :
    Except Fault Bool :=
  let root := Path.resolve directory target
  if path = root then matchesSome (Text.pathName root) included
  else match Path.below? root path with
    | some relative => isSelected included excluded relative
    | none => .ok false

/-- A file that is not wanted fails the test for files below the target. -/
theorem isSelected_of_unwanted {place relative : String}
    (unwanted : wants directory target included excluded place = .ok false)
    (ne : place ≠ Path.resolve directory target)
    (below : Path.below? (Path.resolve directory target) place = some relative) :
    isSelected included excluded relative = .ok false := by
  unfold wants at unwanted
  simpa only [if_neg ne, below] using unwanted

/-- A place below a target that is no file is not the target. -/
theorem ne_resolve_of_file {place : String} (tree : d.IsTree)
    (folder : d.hasFile (Path.resolve directory target) = false)
    (file : (d.fileAt? place).isSome) : place ≠ Path.resolve directory target := by
  rintro rfl
  rw [hasFile_resolve tree, file] at folder
  cases folder

/-- A file stands at each selected path, and it is wanted. -/
theorem of_mem_select {path : String} (tree : d.IsTree)
    (h : select d directory target included excluded = .ok paths) (mem : path ∈ paths) :
    (d.fileAt? path).isSome ∧ wants directory target included excluded path = .ok true := by
  unfold wants
  cases file : d.hasFile (Path.resolve directory target) with
  | true =>
    obtain ⟨wanted, matched, rfl⟩ := paths_of_select_file file h
    cases wanted with
    | true =>
      obtain rfl := List.mem_singleton.mp mem
      exact ⟨(hasFile_resolve tree).symm.trans file, (if_pos rfl).trans matched⟩
    | false => cases mem
  | false =>
    rw [select_of_folder file] at h
    obtain ⟨relative, inside, passed⟩ := ((keep_eq_ok h).2.2 path).mp mem
    obtain ⟨stands, below⟩ := (mem_filesBelow tree).mp inside
    simp only [if_neg (ne_resolve_of_file tree file stands), below]
    exact ⟨stands, passed⟩

/-- The selected paths ascend, and a file stands at each. -/
theorem select_spec (tree : d.IsTree)
    (h : select d directory target included excluded = .ok paths) :
    paths.Pairwise (· < ·) ∧ ∀ path ∈ paths, (d.fileAt? path).isSome := by
  refine ⟨?_, fun path mem => (of_mem_select tree h mem).1⟩
  cases file : d.hasFile (Path.resolve directory target) with
  | true =>
    obtain ⟨wanted, -, rfl⟩ := paths_of_select_file file h
    cases wanted with
    | true => exact List.pairwise_singleton _ _
    | false => exact .nil
  | false =>
    rw [select_of_folder file] at h
    exact (filesBelow_ascending d _).sublist (keep_eq_ok h).2.1

/-- A file that is not wanted is not selected. -/
theorem not_mem_select {place : String} (tree : d.IsTree)
    (unwanted : wants directory target included excluded place = .ok false)
    (h : select d directory target included excluded = .ok paths) : place ∉ paths := by
  intro mem
  cases unwanted.symm.trans (of_mem_select tree h mem).2

/-- Disks that differ in a file that is not wanted have the same selection. -/
theorem select_of_agree {place : String} (tree : d.IsTree) (tree' : e.IsTree)
    (same : e.hasFile (Path.resolve directory target) = d.hasFile (Path.resolve directory target))
    (agree : ∀ path, path ≠ place → (e.fileAt? path).isSome = (d.fileAt? path).isSome)
    (unwanted : wants directory target included excluded place = .ok false)
    (h : select d directory target included excluded = .ok paths) :
    select e directory target included excluded = .ok paths := by
  cases file : d.hasFile (Path.resolve directory target) with
  | true => rw [select_of_file (same.trans file), ← h, select_of_file file]
  | false =>
    rw [select_of_folder file] at h
    rw [select_of_folder (same.trans file)]
    obtain ⟨total, sub, mem⟩ := keep_eq_ok h
    -- At the place itself the test says no, and elsewhere the two disks agree.
    have total' : ∀ item ∈ filesBelow e (Path.resolve directory target),
        ∃ b, isSelected included excluded item.2 = .ok b := by
      rintro ⟨path, relative⟩ inside
      obtain ⟨stands, below⟩ := (mem_filesBelow tree').mp inside
      by_cases there : path = place
      · subst there
        have ne := ne_resolve_of_file tree' (same.trans file) stands
        exact ⟨false, isSelected_of_unwanted unwanted ne below⟩
      · exact total _ ((mem_filesBelow tree).mpr ⟨agree path there ▸ stands, below⟩)
    obtain ⟨paths', h'⟩ := keep_total total'
    obtain ⟨-, sub', mem'⟩ := keep_eq_ok h'
    rw [h']
    have : @Std.Irrefl String (· < ·) := ⟨String.lt_irrefl⟩
    have : @Std.Antisymm String (· < ·) :=
      ⟨fun a b before after => absurd after (String.lt_asymm before)⟩
    refine congrArg Except.ok (((filesBelow_ascending e _).sublist sub').eq_of_mem_iff
      ((filesBelow_ascending d _).sublist sub) fun {path} => ?_)
    rw [mem, mem']
    refine exists_congr fun relative => and_congr_left fun passed => ?_
    rw [mem_filesBelow tree, mem_filesBelow tree']
    refine and_congr_left fun below => ?_
    by_cases there : path = place
    · subst there
      constructor
      · intro stands
        have ne := ne_resolve_of_file tree' (same.trans file) stands
        rw [isSelected_of_unwanted unwanted ne below] at passed
        cases passed
      · intro stands
        have ne := ne_resolve_of_file tree file stands
        rw [isSelected_of_unwanted unwanted ne below] at passed
        cases passed
    · rw [agree path there]

end JsxAudit.Project
