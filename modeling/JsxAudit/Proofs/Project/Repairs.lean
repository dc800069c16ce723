import JsxAudit.Proofs.Project.Run
import JsxAudit.Proofs.Project.Selection
import JsxAudit.Proofs.Rule.Report

/-!
Repairs taken file by file.

A run puts the violations of all files into one list, and sorts them out again by path.
`repairedFiles_eq_ok_iff` says that this comes to looking at each file alone: the repaired files are
those that `Scan.rewriteAt?` gives a new text, in the order of their paths. `writeAll_spec` says what
is on the disk when they have been written.
-/

namespace JsxAudit.Project

open Audit Cache Config Storage Source

variable {σ : Type} {t : Scan σ} {parser : TreeParser} {d e : Disk} {paths : List String}

/-! ### One file -/

namespace Scan

/-- The violations of a file whose fixes are to be carried out. -/
def fixable (t : Scan σ) (f : SourceFile) : List Violation :=
  fixableOf t.config (check t.rules f)

/-- The text that its own fixes give a file, and the violations they remove, if they change it. -/
def rewritten? (t : Scan σ) (f : SourceFile) : Option (String × List Violation) :=
  match Repair.apply t.parser f (t.fixable f) with
  | .ok (text, applied) => if applied.isEmpty || text = f.text then none else some (text, applied)
  | .error _ => none

/-- The new text of the file at a path, if there is a source file and its own fixes change it. -/
def rewriteAt? (t : Scan σ) (d : Disk) (path : String) : Option (String × List Violation) :=
  (readSource? t.parser d path).bind t.rewritten?

theorem rewritten?_eq_some {f : SourceFile} {text : String} {applied : List Violation} :
    t.rewritten? f = some (text, applied) ↔
      Repair.apply t.parser f (t.fixable f) = .ok (text, applied) ∧ applied ≠ [] ∧
        text ≠ f.text := by
  unfold rewritten?
  cases Repair.apply t.parser f (t.fixable f) with
  | error e => simp
  | ok outcome =>
    obtain ⟨text', applied'⟩ := outcome
    by_cases kept : applied' = [] ∨ text' = f.text
    · simp only [List.isEmpty_iff, Bool.or_eq_true, decide_eq_true_eq, kept, if_true]
      constructor
      · intro h
        cases h
      · rintro ⟨eq, some, changed⟩
        cases eq
        exact absurd kept (by simp [some, changed])
    · simp only [List.isEmpty_iff, Bool.or_eq_true, decide_eq_true_eq, kept, if_false]
      rw [not_or] at kept
      constructor
      · intro h
        cases h
        exact ⟨rfl, kept⟩
      · rintro ⟨eq, -⟩
        cases eq
        rfl

/-- Without fixes there is nothing to apply. -/
theorem apply_of_nothing {f : SourceFile} (h : t.fixable f = []) :
    Repair.apply t.parser f (t.fixable f) = .ok (f.text, []) := by
  rw [h]
  simp [Repair.apply, Repair.applyAll, Repair.processingOrder, Except.map, pure, Except.pure]

theorem rewritten?_of_nothing {f : SourceFile} (h : t.fixable f = []) : t.rewritten? f = none := by
  unfold rewritten?
  rw [apply_of_nothing h]
  rfl

/-- The rules of a run are known rules. -/
theorem mem_rules {r : Rule × RuleSettings} (h : r ∈ t.rules) :
    r.1 ∈ Rule.all ∧ t.config.isEnabled r.1.id r.1.type := by
  obtain ⟨rule, mem, rfl⟩ := List.mem_map.mp h
  exact List.mem_filter.mp mem

/-- What is reported about a file names its path, and the id of a rule that is on. -/
theorem path_of_mem_check {f : SourceFile} {v : Violation} (h : v ∈ check t.rules f) :
    v.filePath = f.path := by
  obtain ⟨r, mem, found⟩ := List.mem_flatMap.mp h
  exact (Rule.reports_of_mem_scan (mem_rules mem).1 found).path

theorem of_mem_fixable {f : SourceFile} {v : Violation} (h : v ∈ t.fixable f) :
    v.filePath = f.path ∧ v.fix.isSome ∧ (t.config.rule v.rule).level = .fix := by
  obtain ⟨mem, given⟩ := List.mem_filter.mp h
  simp only [Bool.and_eq_true, decide_eq_true_eq] at given
  exact ⟨path_of_mem_check mem, given⟩

end Scan

open Scan

/-! ### Files at their paths -/

theorem path_of_readSource? {path : String} {f : SourceFile}
    (h : readSource? parser d path = some f) : f.path = path := by
  obtain ⟨text, -, parsed⟩ := Option.bind_eq_some_iff.mp h
  obtain ⟨root, -, rfl⟩ := Option.map_eq_some_iff.mp parsed
  rfl

theorem mem_readSources {path : String} {f : SourceFile} :
    (path, f) ∈ readSources parser d paths ↔
      path ∈ paths ∧ readSource? parser d path = some f := by
  unfold readSources
  rw [List.mem_filterMap]
  constructor
  · rintro ⟨q, mem, found⟩
    obtain ⟨g, read, eq⟩ := Option.map_eq_some_iff.mp found
    cases eq
    exact ⟨mem, read⟩
  · rintro ⟨mem, read⟩
    exact ⟨path, mem, by simp [read]⟩

/-- Files, each at its own path. -/
structure Placed (files : List (String × SourceFile)) : Prop where
  path : ∀ file ∈ files, file.2.path = file.1
  nodup : (files.map (·.1)).Nodup

theorem placed_readSources (nodup : paths.Nodup) : Placed (readSources parser d paths) where
  path := fun ⟨_, _⟩ mem => path_of_readSource? (mem_readSources.mp mem).2
  nodup := by
    have sub : ((readSources parser d paths).map (·.1)).Sublist paths := by
      unfold readSources
      rw [List.map_filterMap]
      have names : (paths.filterMap fun path => ((readSource? parser d path).map fun f =>
          (path, f)).map (·.1)) =
            paths.filter fun path => (readSource? parser d path).isSome := by
        rw [← List.filterMap_eq_filter]
        refine List.filterMap_congr fun path _ => ?_
        cases read : readSource? parser d path <;> simp [Option.guard, read]
      rw [names]
      exact List.filter_sublist
    exact nodup.sublist sub

theorem Placed.tail {file : String × SourceFile} {files : List (String × SourceFile)}
    (h : Placed (file :: files)) : Placed files where
  path other mem := h.path other (List.mem_cons_of_mem _ mem)
  nodup := (List.nodup_cons.mp h.nodup).2

theorem Placed.head_not_mem {file : String × SourceFile} {files : List (String × SourceFile)}
    (h : Placed (file :: files)) {other : String × SourceFile} (mem : other ∈ files) :
    other.1 ≠ file.1 := by
  intro same
  exact (List.nodup_cons.mp h.nodup).1 (List.mem_map.mpr ⟨other, mem, same⟩)

theorem Placed.lookup {files : List (String × SourceFile)} (h : Placed files) {path : String}
    {f : SourceFile} (mem : (path, f) ∈ files) : files.lookup path = some f := by
  induction files with
  | nil => cases mem
  | cons file rest ih =>
    rw [List.lookup_cons]
    rcases List.mem_cons.mp mem with rfl | mem
    · simp
    · have ne : path ≠ file.1 := h.head_not_mem mem
      simpa [beq_eq_false_iff_ne.mpr ne] using ih h.tail mem

/-! ### Sorting the violations out -/

/-- The violations of one file among those of all. -/
theorem Placed.filter_flatMap {files : List (String × SourceFile)} (h : Placed files)
    {report : SourceFile → List Violation}
    (own : ∀ f, ∀ v ∈ report f, v.filePath = f.path) {path : String} {f : SourceFile}
    (mem : (path, f) ∈ files) :
    (files.flatMap fun file => report file.2).filter (·.filePath = path) = report f := by
  have other (file : String × SourceFile) (at_path : file.2.path = file.1) (ne : file.1 ≠ path) :
      (report file.2).filter (·.filePath = path) = [] := by
    refine List.filter_eq_nil_iff.mpr fun v found => ?_
    rw [own _ v found, at_path]
    simpa using ne
  induction files with
  | nil => cases mem
  | cons file rest ih =>
    rw [List.flatMap_cons, List.filter_append]
    rcases List.mem_cons.mp mem with rfl | mem
    · have all : (report f).filter (·.filePath = path) = report f := by
        refine List.filter_eq_self.mpr fun v found => ?_
        simpa using (own f v found).trans (h.path _ List.mem_cons_self)
      have none : (rest.flatMap fun file => report file.2).filter (·.filePath = path) = [] := by
        rw [List.filter_flatMap, List.flatMap_eq_nil_iff]
        intro file mem
        exact other file (h.path file (List.mem_cons_of_mem _ mem)) (h.head_not_mem mem)
      rw [all, none, List.append_nil]
    · rw [other file (h.path file List.mem_cons_self) (h.head_not_mem mem).symm, ih h.tail mem]
      rfl

/-- The names of a list of names, block by block: each name once, at its first block. -/
theorem foldl_occurrences {files : List (String × SourceFile)} (h : Placed files)
    {report : SourceFile → List Violation}
    (own : ∀ f, ∀ v ∈ report f, v.filePath = f.path) (seen : List String)
    (fresh : ∀ file ∈ files, file.1 ∉ seen) :
    ((files.flatMap fun file => report file.2).map (·.filePath)).foldl
      (fun seen name => if seen.contains name then seen else seen ++ [name]) seen =
        seen ++ (files.filter fun file => !(report file.2).isEmpty).map (·.1) := by
  induction files generalizing seen with
  | nil => simp
  | cons file rest ih =>
    obtain ⟨path, f⟩ := file
    have at_path : f.path = path := h.path _ List.mem_cons_self
    have names : (report f).map (·.filePath) = List.replicate (report f).length path := by
      rw [List.eq_replicate_iff]
      refine ⟨by simp, fun name mem => ?_⟩
      obtain ⟨v, found, rfl⟩ := List.mem_map.mp mem
      exact (own f v found).trans at_path
    have again (n : Nat) (seen : List String) (known : path ∈ seen) :
        (List.replicate n path).foldl
          (fun seen name => if seen.contains name then seen else seen ++ [name]) seen = seen := by
      induction n with
      | zero => rfl
      | succ n ih => simpa [List.replicate_succ, known] using ih
    rw [List.flatMap_cons, List.map_append, List.foldl_append, names]
    cases own_report : report f with
    | nil =>
      rw [List.filter_cons_of_neg (by simp [own_report])]
      exact ih h.tail seen fun file mem => fresh file (List.mem_cons_of_mem _ mem)
    | cons v more =>
      have new : path ∉ seen := fresh _ List.mem_cons_self
      rw [List.filter_cons_of_pos (by simp [own_report]), List.length_cons, List.replicate_succ,
        List.foldl_cons, if_neg (by simpa using new), again _ _ (by simp), ih h.tail]
      · simp
      · intro file mem known
        rcases List.mem_append.mp known with known | known
        · exact fresh file (List.mem_cons_of_mem _ mem) known
        · exact h.head_not_mem mem (List.mem_singleton.mp known)

/-! ### All repairs -/

theorem fixableOf_checkAll (files : List (String × SourceFile)) :
    fixableOf t.config (checkAll t.rules (files.map (·.2))) =
      files.flatMap fun file => t.fixable file.2 := by
  rw [checkAll, List.flatMap_map, fixableOf, List.filter_flatMap]
  rfl

theorem filter_fixable (files : List (String × SourceFile)) :
    (files.flatMap fun file => t.fixable file.2).filter (·.fix.isSome) =
      files.flatMap fun file => t.fixable file.2 := by
  refine List.filter_eq_self.mpr fun v mem => ?_
  obtain ⟨file, -, found⟩ := List.mem_flatMap.mp mem
  exact (of_mem_fixable found).2.1

/-- The repaired file that a new text makes. -/
def toRepaired (path : String) (new : String × List Violation) : RepairedFile :=
  { path, text := new.1, applied := new.2.length }

/-- A file is repaired by its own fixes. -/
theorem repaired?_eq {files : List (String × SourceFile)} (placed : Placed files)
    {path : String} {f : SourceFile} (mem : (path, f) ∈ files) :
    repaired? t.parser (files.flatMap fun file => t.fixable file.2) path f =
      (Repair.apply t.parser f (t.fixable f)).map fun _ =>
        (t.rewritten? f).map (toRepaired path) := by
  have own : (files.flatMap fun file => t.fixable file.2).filter
      (fun v => v.filePath = path && v.fix.isSome) = t.fixable f := by
    rw [← List.filter_filter, filter_fixable]
    exact placed.filter_flatMap (fun _ _ found => (of_mem_fixable found).1) mem
  unfold repaired? Scan.rewritten?
  simp only [own]
  cases Repair.apply t.parser f (t.fixable f) with
  | error e => rfl
  | ok pair =>
    simp only [Except.map, bind, Except.bind, pure, Except.pure]
    split <;> rfl

/-- The files with fixes are found again under the names that their violations give. -/
theorem found_again {files : List (String × SourceFile)} (placed : Placed files) :
    (firstOccurrences ((files.flatMap fun file => t.fixable file.2).map (·.filePath))).filterMap
      (fun path => (files.lookup path).map fun f => (path, f)) =
      files.filter fun file => !(t.fixable file.2).isEmpty := by
  rw [firstOccurrences, foldl_occurrences placed (fun _ _ found => (of_mem_fixable found).1) []
    (by simp), List.nil_append, List.filterMap_map]
  have same : ∀ file ∈ files.filter (fun file => !(t.fixable file.2).isEmpty),
      ((fun path => (files.lookup path).map fun f => (path, f)) ∘ (·.1)) file = some file := by
    intro file mem
    simp [placed.lookup (List.mem_filter.mp mem).1]
  rw [List.filterMap_congr same, List.filterMap_some]

/-- The files of a list that their own fixes change. -/
def rewrites (t : Scan σ) (files : List (String × SourceFile)) : List RepairedFile :=
  files.filterMap fun file => (t.rewritten? file.2).map (toRepaired file.1)

/-- The files that a run repairs. -/
def Scan.repairsOf (t : Scan σ) (d : Disk) (paths : List String) : List RepairedFile :=
  paths.filterMap fun path => (t.rewriteAt? d path).map (toRepaired path)

theorem rewrites_readSources : rewrites t (readSources t.parser d paths) = t.repairsOf d paths := by
  unfold rewrites readSources repairsOf
  rw [List.filterMap_filterMap]
  refine List.filterMap_congr fun path _ => ?_
  unfold rewriteAt?
  cases readSource? t.parser d path <;> rfl

/-- Only the files with fixes count. -/
theorem rewrites_filter (files : List (String × SourceFile)) :
    rewrites t (files.filter fun file => !(t.fixable file.2).isEmpty) = rewrites t files := by
  unfold rewrites
  rw [List.filterMap_filter]
  refine List.filterMap_congr fun file _ => ?_
  cases nothing : t.fixable file.2 with
  | nil => simp [rewritten?_of_nothing nothing]
  | cons v rest => simp

/-- The fixes of all files can be carried out exactly if those of each file can, and then the
repaired files are those that their own fixes change. -/
theorem repairedFiles_eq_ok_iff {files : List (String × SourceFile)} (placed : Placed files)
    {repaired : List RepairedFile} :
    repairedFiles t.parser files (fixableOf t.config (checkAll t.rules (files.map (·.2)))) =
        .ok repaired ↔
      repaired = rewrites t files ∧
        ∀ file ∈ files,
          ∃ outcome, Repair.apply t.parser file.2 (t.fixable file.2) = .ok outcome := by
  unfold repairedFiles
  rw [fixableOf_checkAll, filter_fixable]
  simp only [found_again placed]
  rw [← rewrites_filter]
  generalize kept_eq : (files.filter fun file => !(t.fixable file.2).isEmpty) = kept
  have own : ∀ file ∈ kept,
      repaired? t.parser (files.flatMap fun file => t.fixable file.2) file.1 file.2 =
        (Repair.apply t.parser file.2 (t.fixable file.2)).map fun _ =>
          (t.rewritten? file.2).map (toRepaired file.1) := by
    rintro ⟨path, f⟩ mem
    rw [← kept_eq] at mem
    exact repaired?_eq placed (List.mem_filter.mp mem).1
  have collected :
      (kept.map fun file => (t.rewritten? file.2).map (toRepaired file.1)).filterMap id =
      rewrites t kept := List.filterMap_map
  constructor
  · intro h
    cases mapped : kept.mapM fun file =>
        repaired? t.parser (files.flatMap fun file => t.fixable file.2) file.1 file.2 with
    | error e =>
      rw [mapped] at h
      cases h
    | ok found =>
      rw [mapped] at h
      cases h
      obtain ⟨rfl, runs⟩ := (mapM_eq_ok_iff own).mp mapped
      refine ⟨collected, fun file mem => ?_⟩
      cases nothing : t.fixable file.2 with
      | nil => exact ⟨_, nothing ▸ apply_of_nothing nothing⟩
      | cons v rest =>
        rw [← nothing]
        refine runs file ?_
        rw [← kept_eq]
        exact List.mem_filter.mpr ⟨mem, by simp [nothing]⟩
  · rintro ⟨rfl, runs⟩
    have mapped := (mapM_eq_ok_iff own).mpr ⟨rfl, fun file mem => runs file ?_⟩
    · rw [mapped, ← collected]
      rfl
    · rw [← kept_eq] at mem
      exact (List.mem_filter.mp mem).1

/-! ### Writing -/

/-- What is on the disk when all files have been written, each at its own place. -/
structure Written (files : List RepairedFile) (d e : Disk) : Prop where
  folders : e.isFolder = d.isFolder
  locked : e.locked = d.locked
  new : ∀ r ∈ files, e.fileAt? r.path = some (Text.utf8 r.text)
  old : ∀ path, path ∉ files.map (·.path) → e.fileAt? path = d.fileAt? path
  tree : d.IsTree → e.IsTree

/-- Where all files are written, the first one is, and then the others. -/
theorem writtenAt_of_writeAll {r : RepairedFile} {rest : List RepairedFile}
    (located : ∀ x ∈ r :: rest, d.locate? x.path = some x.path)
    (h : writeAll (r :: rest) d = (e, none)) :
    ∃ next, d.writeText r.path r.text = .ok next ∧
      Disk.WrittenAt r.path (Text.utf8 r.text) d next ∧
      (∀ x ∈ rest, next.locate? x.path = some x.path) ∧ writeAll rest next = (e, none) := by
  rw [writeAll] at h
  cases write : d.writeText r.path r.text with
  | error cause =>
    rw [write] at h
    cases h
  | ok next =>
    rw [write] at h
    have first := Disk.writtenAt_of_writeBytes (located r List.mem_cons_self) write
    refine ⟨next, rfl, first, fun x mem => ?_, h⟩
    exact (Disk.locate?_congr first.folders x.path).trans (located x (List.mem_cons_of_mem _ mem))

theorem writeAll_spec {files : List RepairedFile} (nodup : (files.map (·.path)).Nodup)
    (located : ∀ r ∈ files, d.locate? r.path = some r.path)
    (h : writeAll files d = (e, none)) : Written files d e := by
  induction files generalizing d with
  | nil =>
    cases h
    exact ⟨rfl, rfl, nofun, fun _ _ => rfl, id⟩
  | cons r rest ih =>
    obtain ⟨next, write, first, located, h⟩ := writtenAt_of_writeAll located h
    rw [List.map_cons, List.nodup_cons] at nodup
    have written := ih nodup.2 located h
    constructor
    · exact written.folders.trans first.folders
    · exact written.locked.trans first.locked
    · intro x mem
      rcases List.mem_cons.mp mem with rfl | mem
      · rw [written.old _ nodup.1, first.file, if_pos rfl]
      · exact written.new x mem
    · intro path other
      rw [List.map_cons, List.mem_cons, not_or] at other
      rw [written.old _ other.2, first.file, if_neg other.1]
    · intro tree
      exact written.tree (tree.writeBytes write)

/-- Files that have been written could be written. -/
theorem writable_of_writeAll {files : List RepairedFile}
    (located : ∀ r ∈ files, d.locate? r.path = some r.path) (h : writeAll files d = (e, none)) :
    ∀ r ∈ files, d.Writable r.path r.path := by
  induction files generalizing d with
  | nil => exact nofun
  | cons r rest ih =>
    obtain ⟨next, -, first, located, h⟩ := writtenAt_of_writeAll located h
    intro x mem
    rcases List.mem_cons.mp mem with rfl | mem
    · exact first.writable
    · exact (ih located h x mem).congr first.folders.symm first.locked.symm

/-- Files that can be written are all written. -/
theorem writeAll_of_writable {files : List RepairedFile}
    (writable : ∀ r ∈ files, d.Writable r.path r.path) : (writeAll files d).2 = none := by
  induction files generalizing d with
  | nil => rfl
  | cons r rest ih =>
    have w := writable r List.mem_cons_self
    have write : d.writeText r.path r.text = .ok (d.put r.path (.file (Text.utf8 r.text))) :=
      Disk.writeBytes_eq_ok_iff.mpr ⟨r.path, w, rfl⟩
    rw [writeAll, write]
    exact ih fun x mem =>
      (writable x (List.mem_cons_of_mem _ mem)).congr (Disk.isFolder_put_file w.notFolder) rfl

end JsxAudit.Project
