import JsxAudit.Proofs.Data.StableSort
import JsxAudit.Proofs.Project.FileByFile
import JsxAudit.Proofs.Repair.Returns

/-!
What a run that fixes reports is what a run without fixing finds afterwards.

The run that fixes puts its report together from the old reports of the files it leaves alone and the
new reports of the files it has rewritten, and sorts them by path. `remaining_eq` says that this comes
to one report for each file (`Scan.reportAfter`), in the order of the paths. `reportAt_after` says
that a run without fixing makes the same report of the file as it then is on the disk, provided that
its new text is read as it was written.
-/

namespace JsxAudit.Project

open Audit Cache Config Data Storage Source Report

variable {σ : Type} {t : Scan σ} {parser : TreeParser} {p q : Progress σ} {d e mid : Disk}
  {paths : List String}

/-! ### Reading files back -/

/-- A file on a tree is read at its own path. -/
theorem readSource?_of_fileAt? (tree : d.IsTree) {path : String} {bytes : List UInt8}
    (file : d.fileAt? path = some bytes) :
    readSource? parser d path =
      ((Text.decode? bytes).map Text.withLineFeeds).bind (SourceFile.parseWith parser path) := by
  rw [readSource?, Disk.readText?_of_locate? (tree.locate?_file file), file, Option.bind_some]

theorem noReturns_of_readSource? {path : String} {f : SourceFile}
    (h : readSource? parser d path = some f) : Text.NoReturns f.text := by
  obtain ⟨text, read, parsed⟩ := Option.bind_eq_some_iff.mp h
  rw [(Repair.parseWith_eq_some parsed).2.2]
  unfold Disk.readText? at read
  split at read
  · obtain ⟨written, -, rfl⟩ := Option.map_eq_some_iff.mp read
    exact Text.noReturns_withLineFeeds written
  · cases read

/-- A text without carriage returns is read as it was written. -/
theorem readSource?_of_written (tree : d.IsTree) {path text : String}
    (file : d.fileAt? path = some (Text.utf8 text)) (clean : Text.NoReturns text) :
    readSource? parser d path = SourceFile.parseWith parser path text := by
  rw [readSource?_of_fileAt? tree file, Text.decode?_utf8, Option.map_some,
    Text.withLineFeeds_of_not_mem clean, Option.bind_some]

/-! ### Reports by file -/

namespace Scan

/-- What the rules of a run report about a text at a path, if it is a program. -/
def reportOn (t : Scan σ) (path text : String) : List Violation :=
  ((SourceFile.parseWith t.parser path text).map (check t.rules)).getD []

/-- What the rules of a run report about the file at a path, if it can be read. -/
def reportAt (t : Scan σ) (d : Disk) (path : String) : List Violation :=
  ((readSource? t.parser d path).map (check t.rules)).getD []

/-- What the rules report about a file after its own fixes. -/
def reportAfter (t : Scan σ) (d : Disk) (path : String) : List Violation :=
  match t.rewriteAt? d path with
  | some new => t.reportOn path new.1
  | none => t.reportAt d path

theorem path_of_mem_reportOn {path text : String} {v : Violation} (h : v ∈ t.reportOn path text) :
    v.filePath = path := by
  unfold reportOn at h
  cases parsed : SourceFile.parseWith t.parser path text with
  | none =>
    rw [parsed] at h
    cases h
  | some f =>
    rw [parsed] at h
    exact (path_of_mem_check h).trans (Repair.parseWith_eq_some parsed).2.1

theorem path_of_mem_reportAt {path : String} {v : Violation} (h : v ∈ t.reportAt d path) :
    v.filePath = path := by
  unfold reportAt at h
  cases read : readSource? t.parser d path with
  | none =>
    rw [read] at h
    cases h
  | some f =>
    rw [read] at h
    exact (path_of_mem_check h).trans (path_of_readSource? read)

theorem path_of_mem_reportAfter {path : String} {v : Violation} (h : v ∈ t.reportAfter d path) :
    v.filePath = path := by
  unfold reportAfter at h
  split at h
  · exact path_of_mem_reportOn h
  · exact path_of_mem_reportAt h

theorem survey_violations (t : Scan σ) (d : Disk) (paths : List String) :
    (t.survey d paths).violations = paths.flatMap (t.reportAt d) := by
  change checkAll t.rules ((readSources t.parser d paths).map (·.2)) = _
  unfold checkAll readSources reportAt
  induction paths with
  | nil => rfl
  | cons path rest ih =>
    rw [List.filterMap_cons, List.flatMap_cons, ← ih]
    cases readSource? t.parser d path <;> simp

end Scan

open Scan

/-- The violations of one path among those of all. -/
theorem filter_flatMap_path {report : String → List Violation}
    (own : ∀ path, ∀ v ∈ report path, v.filePath = path) (nodup : paths.Nodup) (path : String) :
    (paths.flatMap report).filter (·.filePath = path) =
      if path ∈ paths then report path else [] := by
  induction paths with
  | nil => rfl
  | cons first rest ih =>
    obtain ⟨new, nodup⟩ := List.nodup_cons.mp nodup
    rw [List.flatMap_cons, List.filter_append, ih nodup]
    by_cases here : path = first
    · subst here
      have all : (report path).filter (·.filePath = path) = report path :=
        List.filter_eq_self.mpr fun v mem => by simpa using own path v mem
      rw [all, if_neg new, if_pos List.mem_cons_self, List.append_nil]
    · have none : (report first).filter (·.filePath = path) = [] := by
        refine List.filter_eq_nil_iff.mpr fun v mem => ?_
        rw [own first v mem]
        simpa using Ne.symm here
      rw [none, List.nil_append]
      simp [here]

/-- The old reports that are kept: those of the files without a new text. -/
theorem untouched_eq (t : Scan σ) (d : Disk) (paths : List String) :
    ((t.survey d paths).violations.filter fun v =>
      !((t.repairsOf d paths).any (·.path = v.filePath))) =
      paths.flatMap fun path => if (t.rewriteAt? d path).isSome then [] else t.reportAt d path := by
  have repaired (path : String) (mem : path ∈ paths) :
      ((t.repairsOf d paths).any fun r => decide (r.path = path)) =
        (t.rewriteAt? d path).isSome := by
    rw [Bool.eq_iff_iff, List.any_eq_true]
    have names : path ∈ (t.repairsOf d paths).map (·.path) ↔ (t.rewriteAt? d path).isSome := by
      rw [paths_repairsOf, List.mem_filter]
      exact and_iff_right mem
    simpa [List.mem_map] using names
  rw [survey_violations, List.filter_flatMap]
  refine List.flatMap_congr fun path mem => ?_
  split
  · rename_i rewritten
    refine List.filter_eq_nil_iff.mpr fun v found => ?_
    rw [path_of_mem_reportAt found, repaired path mem, rewritten]
    decide
  · rename_i kept
    refine List.filter_eq_self.mpr fun v found => ?_
    rw [path_of_mem_reportAt found, repaired path mem, Bool.eq_false_iff.mpr kept]
    decide

/-- The new reports: those of the files with a new text. -/
theorem rescanned_eq (t : Scan σ) (d : Disk) (paths : List String) :
    checkAll t.rules
        ((t.repairsOf d paths).filterMap fun r => SourceFile.parseWith t.parser r.path r.text) =
      paths.flatMap fun path =>
        ((t.rewriteAt? d path).map fun new => t.reportOn path new.1).getD [] := by
  unfold checkAll repairsOf reportOn
  induction paths with
  | nil => rfl
  | cons path rest ih =>
    rw [List.filterMap_cons, List.flatMap_cons, ← ih]
    cases t.rewriteAt? d path with
    | none => simp
    | some new =>
      cases parsed : SourceFile.parseWith t.parser path new.1 <;> simp [parsed, toRepaired]

/-- What is left after the repairs is one report for each file, in the order of the paths. -/
theorem remaining_eq (ascending : paths.Pairwise (· < ·)) :
    remaining t.parser t.rules (t.survey d paths).violations (t.repairsOf d paths) =
      paths.flatMap (t.reportAfter d) := by
  have nodup := nodup_of_ascending ascending
  have trans (a b c : Violation) (ab : decide (a.filePath ≤ b.filePath) = true)
      (bc : decide (b.filePath ≤ c.filePath) = true) : decide (a.filePath ≤ c.filePath) = true :=
    decide_eq_true (String.le_trans (of_decide_eq_true ab) (of_decide_eq_true bc))
  have total (a b : Violation) :
      (decide (a.filePath ≤ b.filePath) || decide (b.filePath ≤ a.filePath)) = true := by
    simpa using String.le_total a.filePath b.filePath
  have own_kept (path : String) : ∀ v ∈ (if (t.rewriteAt? d path).isSome then []
      else t.reportAt d path), v.filePath = path := by
    intro v mem
    split at mem
    · cases mem
    · exact path_of_mem_reportAt mem
  have own_new (path : String) : ∀ v ∈ ((t.rewriteAt? d path).map fun new =>
      t.reportOn path new.1).getD [], v.filePath = path := by
    intro v mem
    cases new : t.rewriteAt? d path with
    | none =>
      rw [new] at mem
      cases mem
    | some pair =>
      rw [new] at mem
      exact path_of_mem_reportOn mem
  unfold remaining
  dsimp only
  rw [untouched_eq, rescanned_eq]
  refine eq_of_filter_eq (fun a b => String.le_antisymm) ((List.pairwise_mergeSort trans total _).imp
    of_decide_eq_true) ?_ fun path => ?_
  · rw [List.pairwise_flatMap]
    constructor
    · intro path mem
      refine List.pairwise_iff_forall_sublist.mpr fun {a b} pair => ?_
      have first := path_of_mem_reportAfter (pair.subset List.mem_cons_self)
      have second :=
        path_of_mem_reportAfter (pair.subset (List.mem_cons_of_mem _ List.mem_cons_self))
      exact first.trans second.symm ▸ String.le_refl a.filePath
    · refine ascending.imp fun before a found b found' => ?_
      rw [path_of_mem_reportAfter found, path_of_mem_reportAfter found']
      exact String.not_lt.mp (String.lt_asymm before)
  · have level (a b : Violation) (at_path : decide (a.filePath = path) = true)
        (at_path' : decide (b.filePath = path) = true) :
        decide (a.filePath ≤ b.filePath) = true := by
      rw [of_decide_eq_true at_path, of_decide_eq_true at_path']
      exact decide_eq_true (String.le_refl path)
    rw [filter_mergeSort trans total level, List.filter_append, filter_flatMap_path own_kept nodup,
      filter_flatMap_path own_new nodup,
      filter_flatMap_path (fun _ _ => path_of_mem_reportAfter) nodup]
    by_cases mem : path ∈ paths
    · rw [if_pos mem, if_pos mem, if_pos mem, reportAfter]
      cases t.rewriteAt? d path with
      | none => exact List.append_nil _
      | some new => rfl
    · rw [if_neg mem, if_neg mem, if_neg mem, List.append_nil]

/-! ### The disk afterwards -/

/-- The fixes that a run carries out in the selected files hold no carriage returns. -/
def Scan.FixesNoReturns (t : Scan σ) (d : Disk) (paths : List String) : Prop :=
  ∀ path ∈ paths, ∀ f, readSource? t.parser d path = some f →
    ∀ v ∈ t.fixable f, Repair.FixNoReturns v

/-- The text that its own fixes give a file holds no carriage returns. -/
theorem noReturns_of_rewriteAt? {path : String} {new : String × List Violation}
    (clean : t.FixesNoReturns d paths) (mem : path ∈ paths)
    (h : t.rewriteAt? d path = some new) : Text.NoReturns new.1 := by
  obtain ⟨text, applied⟩ := new
  obtain ⟨f, read, run, -⟩ := rewriteAt?_eq_some.mp h
  refine Repair.noReturns_apply (noReturns_of_readSource? read) ?_ (clean path mem f read) run
  intro v found fix given
  obtain ⟨r, known, reported⟩ := List.mem_flatMap.mp (List.mem_filter.mp found).1
  exact (Rule.reports_of_mem_scan (mem_rules known).1 reported).prescribed fix given

/-- On a disk that holds the new texts, the rules report about a file what the run has reported. -/
theorem reportAt_after (tree : d.IsTree) (tree' : e.IsTree) (clean : t.FixesNoReturns d paths)
    {path : String} (mem : path ∈ paths) (there : (d.fileAt? path).isSome)
    (file : e.fileAt? path =
      ((t.rewriteAt? d path).map fun new => Text.utf8 new.1).or (d.fileAt? path)) :
    t.reportAt e path = t.reportAfter d path := by
  unfold reportAfter
  cases new : t.rewriteAt? d path with
  | none =>
    obtain ⟨bytes, stands⟩ := Option.isSome_iff_exists.mp there
    have kept : e.fileAt? path = some bytes := by rw [file, new, stands]; rfl
    unfold reportAt
    rw [readSource?_of_fileAt? tree' kept, readSource?_of_fileAt? tree stands]
  | some pair =>
    have written : e.fileAt? path = some (Text.utf8 pair.1) := by rw [file, new]; rfl
    unfold reportAt reportOn
    rw [readSource?_of_written tree' written (noReturns_of_rewriteAt? clean mem new)]

/-- A run that fixes reports about each file what the rules report about it after its own fixes. -/
theorem Repaired.reports {violations : List Violation} {count : Nat}
    (ascending : paths.Pairwise (· < ·)) (r : Repaired t d paths violations count mid) :
    violations = paths.flatMap (t.reportAfter d) := by
  rw [r.violations]
  split
  · rename_i nothing
    rw [survey_violations]
    refine List.flatMap_congr fun path mem => ?_
    have unchanged : t.rewriteAt? d path = none := by
      have empty : (t.repairsOf d paths).map (·.path) = _ := paths_repairsOf
      rw [nothing, List.map_nil] at empty
      simpa using List.filter_eq_nil_iff.mp empty.symm path mem
    rw [reportAfter, unchanged]
  · exact remaining_eq ascending

/-- The files of a disk after the repairs of a run and the storing of its score. -/
structure Left (d after : Disk) (place : String) : Prop where
  tree : after.IsTree
  folders : ∀ path, d.isFolder path → after.isFolder path
  notFolder : d.isFolder place = false
  score : (after.fileAt? place).isSome
  others : ∀ path, path ≠ place → (after.fileAt? path).isSome = (d.fileAt? path).isSome

theorem Repaired.left {violations : List Violation} {count : Nat} {made after : Disk}
    {folder place : String} {bytes : List UInt8} (tree : d.IsTree)
    (files : ∀ path ∈ paths, (d.fileAt? path).isSome)
    (r : Repaired t d paths violations count mid)
    (stored : ScoreRecord.Stored folder place mid made after bytes) : Left d after place where
  tree := stored.tree (r.written.tree tree)
  folders path h := stored.more path (r.written.folders ▸ h)
  notFolder := by
    have unmade := stored.writable.notFolder
    rw [← Bool.not_eq_true] at unmade ⊢
    intro before
    exact unmade ((Disk.makeFolders_spec stored.folders).folders place (r.written.folders ▸ before))
  score := by
    rw [stored.fileAt?, if_pos rfl]
    rfl
  others path ne := by
    rw [stored.fileAt?, if_neg ne, r.fileAt?]
    split
    · rename_i mem
      rw [Option.isSome_or, files path mem, Bool.or_true]
    · rfl

/-- A target that has been there is there, and it is a file if it has been one. -/
theorem Left.hasFile {after : Disk} {place : String} (l : Left d after place) (tree : d.IsTree)
    (target : d.has (Path.join t.directory t.target) = true) :
    after.hasFile (Path.resolve t.directory t.target) =
      d.hasFile (Path.resolve t.directory t.target) := by
  rw [hasFile_resolve l.tree, hasFile_resolve tree]
  by_cases at_place : Path.resolve t.directory t.target = place
  · have stands : (d.at? place).isSome := by
      unfold Disk.has Disk.find? at target
      cases found : d.locate? (Path.join t.directory t.target) with
      | none =>
        rw [found] at target
        cases target
      | some there =>
        rw [found, Option.bind_some, Disk.locate?_eq_resolve found, at_place] at target
        exact target
    rw [at_place, l.score]
    rcases Disk.isSome_at?_iff.mp stands with folder | file
    · rw [l.notFolder] at folder
      cases folder
    · exact file.symm
  · exact l.others _ at_place

/-! ### A run without fixing after one with -/

/-- The same run without fixing, at another time. -/
def Scan.withoutFixing (t : Scan σ) (now : String) : Scan σ :=
  { t with config := { t.config with fix := false }, now }

theorem isShort_score (violations : List Violation) (timestamp : String) :
    ScoreRecord.IsShort { score := score violations, timestamp } := by
  have small : score violations < 10 ^ 3 := by
    unfold score scoreAfter
    omega
  have digits := (Nat.length_toDigits_le_iff (by decide) (by decide)).mpr small
  exact digits.trans (by decide)

end JsxAudit.Project
