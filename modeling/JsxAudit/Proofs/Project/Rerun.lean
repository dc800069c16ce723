import JsxAudit.Proofs.Project.Rescan

/-!
A second run that fixes, on the disk that the first one has left.

The second run finds the new texts, and it is up to each of them alone whether there is something to
fix again: `Scan.againAt?`. One pass does not settle every text. Edits of one pass can take away what
another edit of it has given, so that the second run may fix what the first has been said to fix
(`run_again_link`). `run_again` says what the second run does in every case, and that it does nothing
if the first one reports nothing that can be fixed.
-/

namespace JsxAudit.Project

open Audit Cache Config Data Storage Source Report

variable {σ : Type} {t : Scan σ} {p q : Progress σ} {d e mid : Disk} {paths : List String}

/-- The same run at another time. -/
def Scan.again (t : Scan σ) (now : String) : Scan σ :=
  { t with now }

/-- What a run makes of the text that it has given to the file at a path, if it changes that text
again. -/
def Scan.againAt? (t : Scan σ) (d : Disk) (path : String) : Option (String × List Violation) :=
  (t.rewriteAt? d path).bind fun new =>
    (SourceFile.parseWith t.parser path new.1).bind t.rewritten?

/-! ### Files that a run has left -/

/-- The selected files as a run that fixes has left them. -/
structure Finished (t : Scan σ) (before after : Disk) (paths : List String) : Prop where
  tree : before.IsTree
  tree' : after.IsTree
  selected : select before t.directory t.target t.config.included t.config.excluded = .ok paths
  reselected : select after t.directory t.target t.config.included t.config.excluded = .ok paths
  target : after.has (Path.join t.directory t.target) = true
  clean : t.FixesNoReturns before paths
  file : ∀ path ∈ paths, after.fileAt? path =
    ((t.rewriteAt? before path).map fun new => Text.utf8 new.1).or (before.fileAt? path)
  writable : ∀ r ∈ t.repairsOf before paths, after.Writable r.path r.path

namespace Finished

variable {after : Disk} {path : String}

theorem reportAt_eq (h : Finished t d after paths) (mem : path ∈ paths) :
    t.reportAt after path = t.reportAfter d path :=
  reportAt_after h.tree h.tree' h.clean mem ((select_spec h.tree h.selected).2 path mem)
    (h.file path mem)

/-- A file that has kept its text is kept again, and a new text is looked at by itself. -/
theorem rewriteAt?_eq (h : Finished t d after paths) (mem : path ∈ paths) :
    t.rewriteAt? after path = t.againAt? d path := by
  have file := h.file path mem
  unfold Scan.againAt?
  cases new : t.rewriteAt? d path with
  | none =>
    obtain ⟨bytes, stands⟩ :=
      Option.isSome_iff_exists.mp ((select_spec h.tree h.selected).2 path mem)
    rw [new, stands] at file
    rw [Option.bind_none, ← new, Scan.rewriteAt?, Scan.rewriteAt?,
      readSource?_of_fileAt? h.tree' file, readSource?_of_fileAt? h.tree stands]
  | some pair =>
    rw [new] at file
    rw [Option.bind_some, Scan.rewriteAt?, readSource?_of_written h.tree' file
      (noReturns_of_rewriteAt? h.clean mem new)]

end Finished

/-- The place of the score does not depend on the disk. -/
theorem place_unique {after : Disk} {folder place place' : String}
    (found : d.locate? (ScoreRecord.pathIn folder) = some place)
    (found' : after.locate? (ScoreRecord.pathIn folder) = some place') : place' = place :=
  (Disk.locate?_eq_normal found').trans (Disk.locate?_eq_normal found).symm

/-- What a run has repaired could be written. -/
theorem writable_of_repairs (on : t.config.fix = true) (nodup : paths.Nodup)
    (located : ∀ path ∈ paths, d.locate? path = some path) {violations : List Violation}
    {count : Nat} (h : t.Repairs (t.survey d paths) d violations count mid) :
    ∀ r ∈ t.repairsOf d paths, d.Writable r.path r.path := by
  have placed : Placed (readSources t.parser d paths) := placed_readSources nodup
  cases h with
  | off no =>
    rw [on] at no
    cases no
  | nothing _ none =>
    obtain ⟨eq, -⟩ := (repairedFiles_eq_ok_iff placed).mp none
    rw [← rewrites_readSources, ← eq]
    exact nofun
  | some _ repaired _ written =>
    obtain ⟨eq, -⟩ := (repairedFiles_eq_ok_iff placed).mp repaired
    obtain rfl := eq.trans rewrites_readSources
    exact writable_of_writeAll (fun r mem => located _ (mem_repairsOf.mp mem).1) written

/-- What a run that fixes has left and reported when it has ended well. -/
theorem finished_of_run (alone : t.services = none) (on : t.config.fix = true)
    (tree : p.disk.IsTree) {result : ScanResult} {usage : Generation.TokenUsage}
    (ran : t.run.run.run p = (.ok (result, usage), q))
    (clean : ∀ paths,
      select p.disk t.directory t.target t.config.included t.config.excluded = .ok paths →
        t.FixesNoReturns p.disk paths)
    (apart : ∀ place, q.disk.locate? (ScoreRecord.pathIn t.cacheFolder) = some place →
      wants t.directory t.target t.config.included t.config.excluded place = .ok false) :
    ∃ paths place, Finished t p.disk q.disk paths ∧
      result.violations = paths.flatMap (t.reportAfter p.disk) ∧
      result.score = score result.violations ∧
      ∃ mid made, ScoreRecord.Stored t.cacheFolder place mid made q.disk
        (Text.utf8 (Json.write .ascii (ScoreRecord.toValue
          { score := score result.violations, timestamp := t.now }))) := by
  have completes := Scan.completes_of_run alone ran
  generalize q.disk = after at completes apart
  cases completes with
  | @intro previous paths violations count mid after target before selected repairs stored =>
    obtain ⟨made, place, stored⟩ := ScoreRecord.write_eq_ok_iff.mp stored
    obtain ⟨nodup, located⟩ := located_of_select tree selected
    obtain ⟨ascending, files⟩ := select_spec tree selected
    have repaired := repaired_of_repairs on nodup located repairs
    have left := repaired.left tree files stored
    have unwanted := apart place stored.locate?
    have kept : ∀ path, (p.disk.fileAt? path).isSome → (after.fileAt? path).isSome := by
      intro path stands
      by_cases at_place : path = place
      · rw [at_place, left.score]
      · rw [left.others path at_place, stands]
    refine ⟨paths, place, ?_, repaired.reports ascending, rfl, mid, made, stored⟩
    exact
      { tree, tree' := left.tree, selected
        reselected := select_of_agree tree left.tree (left.hasFile tree target) left.others unwanted
          selected
        target := Disk.has_mono left.folders kept target
        clean := clean paths selected
        file := fun path mem => by
          have ne : path ≠ place := by
            rintro rfl
            exact not_mem_select tree unwanted selected mem
          have file := (stored.fileAt? path).trans ((if_neg ne).trans repaired.fileAt?)
          rwa [if_pos mem] at file
        writable := fun r mem =>
          (writable_of_repairs on nodup located repairs r mem).mono left.folders
            (stored.locked.trans repaired.written.locked)
            (kept _ (files _ (mem_repairsOf.mp mem).1)) }

/-! ### The second run -/

/-- What the second run does: it carries out the fixes that the new texts have left, each file but
that of the score ends with the text that these give it, and the report is that of the files as they
then are. -/
structure FixesAgain (t : Scan σ) (before after last : Disk) (place : String)
    (paths : List String) (result : ScanResult) : Prop where
  counted : result.fixedCount = ((paths.filterMap (t.againAt? before)).map (·.2.length)).sum
  files : ∀ path, path ≠ place → last.fileAt? path = if path ∈ paths then
      ((t.againAt? before path).map fun new => Text.utf8 new.1).or (after.fileAt? path)
      else after.fileAt? path
  reports : result.violations = paths.flatMap (t.reportAfter after)
  score : result.score = score result.violations

theorem applied_of_againAt? {path : String} {new : String × List Violation}
    (h : t.againAt? d path = some new) : new.2 ≠ [] := by
  obtain ⟨first, -, h⟩ := Option.bind_eq_some_iff.mp h
  obtain ⟨f, -, h⟩ := Option.bind_eq_some_iff.mp h
  exact (Scan.rewritten?_eq_some.mp h).2.1

/-- It applies no fix exactly if no new text is changed again. -/
theorem FixesAgain.nothing_iff {after last : Disk} {place : String} {result : ScanResult}
    (h : FixesAgain t d after last place paths result) :
    result.fixedCount = 0 ↔ ∀ path ∈ paths, t.againAt? d path = none := by
  rw [h.counted, ← List.filterMap_eq_nil_iff]
  cases again : paths.filterMap (t.againAt? d) with
  | nil => simp
  | cons new rest =>
    obtain ⟨path, -, found⟩ :=
      List.mem_filterMap.mp (again ▸ List.mem_cons_self : new ∈ paths.filterMap (t.againAt? d))
    have some := List.length_pos_of_ne_nil (applied_of_againAt? found)
    rw [List.map_cons, List.sum_cons]
    constructor
    · intro zero
      omega
    · intro nil
      cases nil

theorem fixesAgain_of_run {place : String} (alone : t.services = none) (on : t.config.fix = true)
    (f : Finished t d p.disk paths)
    (found : p.disk.locate? (ScoreRecord.pathIn t.cacheFolder) = some place) {now : String}
    {result : ScanResult} {usage : Generation.TokenUsage}
    (ran : (t.again now).run.run.run p = (.ok (result, usage), q)) :
    FixesAgain t d p.disk q.disk place paths result := by
  have completes := Scan.completes_of_run (t := t.again now) alone ran
  generalize q.disk = last at completes
  cases completes with
  | @intro previous paths' violations count mid last target before selected repairs stored =>
    obtain rfl : paths = paths' := Except.ok.inj (f.reselected.symm.trans selected)
    obtain ⟨made, place', stored⟩ := ScoreRecord.write_eq_ok_iff.mp stored
    obtain rfl := place_unique found stored.locate?
    obtain ⟨nodup, located⟩ := located_of_select f.tree' selected
    have repaired := repaired_of_repairs (t := t.again now) on nodup located repairs
    have same : ∀ path ∈ paths, (t.again now).rewriteAt? p.disk path = t.againAt? d path :=
      fun path mem => f.rewriteAt?_eq mem
    constructor
    · refine (congrArg Int.ofNat repaired.count).trans ?_
      rw [List.filterMap_congr same]
      rfl
    · intro path ne
      rw [stored.fileAt?, if_neg ne, repaired.fileAt?]
      split
      · rename_i mem
        rw [same path mem]
      · rfl
    · exact Repaired.reports (t := t.again now) (select_spec f.tree' selected).1 repaired
    · rfl

/-- A run can carry out repairs that can be applied and written. -/
theorem repairs_of_writable (on : t.config.fix = true) (nodup : paths.Nodup)
    (runs : ∀ path ∈ paths, ∀ f, readSource? t.parser d path = some f →
      ∃ outcome, Repair.apply t.parser f (t.fixable f) = .ok outcome)
    (writable : ∀ r ∈ t.repairsOf d paths, d.Writable r.path r.path) :
    ∃ violations count mid, t.Repairs (t.survey d paths) d violations count mid := by
  by_cases nothing : t.repairsOf d paths = []
  · refine ⟨_, 0, d, .nothing on ((repairedFiles_eq_ok_iff (placed_readSources nodup)).mpr
      ⟨?_, fun file mem => ?_⟩)⟩
    · rw [rewrites_readSources, nothing]
    · obtain ⟨there, read⟩ := mem_readSources.mp mem
      exact runs _ there _ read
  · have written := writeAll_of_writable writable
    rcases all : writeAll (t.repairsOf d paths) d with ⟨mid, failure⟩
    rw [all] at written
    obtain rfl : failure = none := written
    exact ⟨_, _, mid, repairs_of_written on nodup runs nothing all⟩

/-- The second run ends well if the fixes of the new texts can be carried out: where the first run
could write, the second one can. -/
theorem Finished.run_ends {place : String} {r : ScoreRecord} {mid made : Disk} (short : r.IsShort)
    (alone : t.services = none) (on : t.config.fix = true) (f : Finished t d p.disk paths)
    (stored : ScoreRecord.Stored t.cacheFolder place mid made p.disk
      (Text.utf8 (Json.write .ascii r.toValue)))
    (runs : ∀ path ∈ paths, ∀ g, readSource? t.parser p.disk path = some g →
      ∃ outcome, Repair.apply t.parser g (t.fixable g) = .ok outcome) (now : String) :
    ∃ result q, (t.again now).run.run.run p = (.ok (result, {}), q) := by
  obtain ⟨nodup, located⟩ := located_of_select f.tree' f.reselected
  have writable : ∀ x ∈ (t.again now).repairsOf p.disk paths, p.disk.Writable x.path x.path := by
    intro x mem
    obtain ⟨there, applied, new, -⟩ := mem_repairsOf.mp mem
    have again : t.againAt? d x.path = some (x.text, applied) := (f.rewriteAt?_eq there).symm.trans new
    -- What is changed again has been written before.
    obtain ⟨first, changed, -⟩ := Option.bind_eq_some_iff.mp again
    exact f.writable (toRepaired x.path first) (mem_repairsOf.mpr ⟨there, first.2, changed, rfl⟩)
  obtain ⟨violations, count, mid', repairs⟩ :=
    repairs_of_writable (t := t.again now) on nodup runs writable
  have written := (repaired_of_repairs (t := t.again now) on nodup located repairs).written
  have completes := Scan.Completes.intro (t := t.again now) f.target (stored.read short _) f.reselected
    repairs (ScoreRecord.write_eq_ok_iff.mpr
      ⟨mid', place, stored.later written.folders written.locked _⟩)
  obtain ⟨q, ran, -⟩ := Scan.run_of_completes (t := t.again now) alone completes
  exact ⟨_, q, ran⟩

/-- A second run has nothing to do in files about which nothing is reported that could be fixed. -/
theorem Finished.fixable_eq_nil {after : Disk} (f : Finished t d after paths) {path : String}
    (mem : path ∈ paths) (unfixable : ∀ v ∈ t.reportAfter d path, v.fix.isSome →
      (t.config.rule v.rule).level ≠ .fix) {g : SourceFile}
    (read : readSource? t.parser after path = some g) : t.fixable g = [] := by
  have report : check t.rules g = t.reportAfter d path := by
    rw [← f.reportAt_eq mem, Scan.reportAt, read]
    rfl
  refine List.filter_eq_nil_iff.mpr fun v found => ?_
  have level := unfixable v (report ▸ found)
  simpa using level

/-- After a run that fixes has ended well, a second one ends well if the fixes of the new texts can
be carried out at all. It carries out these fixes and no others, so that it applies none exactly if
no new text is changed again. In particular it ends well, changes no file but that of the score and
reports the same if the first run has reported nothing that can be fixed. The texts of the fixes hold
no carriage returns, and the file of the score is not selected. -/
theorem run_again (alone : t.services = none) (on : t.config.fix = true) (tree : p.disk.IsTree)
    {result : ScanResult} {usage : Generation.TokenUsage}
    (ran : t.run.run.run p = (.ok (result, usage), q))
    (clean : ∀ paths,
      select p.disk t.directory t.target t.config.included t.config.excluded = .ok paths →
        t.FixesNoReturns p.disk paths)
    (apart : ∀ place, q.disk.locate? (ScoreRecord.pathIn t.cacheFolder) = some place →
      wants t.directory t.target t.config.included t.config.excluded place = .ok false)
    (now : String) {p' : Progress σ} (same : p'.disk = q.disk) :
    ∃ paths place,
      select p.disk t.directory t.target t.config.included t.config.excluded = .ok paths ∧
      q.disk.locate? (ScoreRecord.pathIn t.cacheFolder) = some place ∧
      ((∀ path ∈ paths, ∀ g, readSource? t.parser q.disk path = some g →
          ∃ outcome, Repair.apply t.parser g (t.fixable g) = .ok outcome) →
        ∃ result' q', (t.again now).run.run.run p' = (.ok (result', {}), q')) ∧
      (∀ result' usage' q', (t.again now).run.run.run p' = (.ok (result', usage'), q') →
        FixesAgain t p.disk q.disk q'.disk place paths result' ∧
        (result'.fixedCount = 0 ↔ ∀ path ∈ paths, t.againAt? p.disk path = none)) ∧
      ((∀ v ∈ result.violations, v.fix.isSome → (t.config.rule v.rule).level ≠ .fix) →
        ∃ result' q', (t.again now).run.run.run p' = (.ok (result', {}), q') ∧
          result'.fixedCount = 0 ∧ result'.violations = result.violations ∧
          ∀ path, path ≠ place → q'.disk.fileAt? path = q.disk.fileAt? path) := by
  obtain ⟨paths, place, f, violations, score, mid, made, stored⟩ :=
    finished_of_run alone on tree ran clean apart
  have short := isShort_score result.violations t.now
  rw [← same] at f stored ⊢
  have ends := f.run_ends short alone on stored
  have fixes : ∀ result' usage' q', (t.again now).run.run.run p' = (.ok (result', usage'), q') →
      FixesAgain t p.disk p'.disk q'.disk place paths result' :=
    fun _ _ _ ran' => fixesAgain_of_run alone on f stored.locate? ran'
  refine ⟨paths, place, f.selected, stored.locate?, fun runs => ends runs now,
    fun _ _ _ ran' => ⟨fixes _ _ _ ran', (fixes _ _ _ ran').nothing_iff⟩, fun unfixable => ?_⟩
  rw [violations] at unfixable
  have nothing : ∀ path ∈ paths, ∀ g, readSource? t.parser p'.disk path = some g →
      t.fixable g = [] :=
    fun path mem g read => f.fixable_eq_nil mem
      (fun v found => unfixable v (List.mem_flatMap.mpr ⟨path, mem, found⟩)) read
  have kept : ∀ path ∈ paths, t.rewriteAt? p'.disk path = none := by
    intro path mem
    unfold Scan.rewriteAt?
    cases read : readSource? t.parser p'.disk path with
    | none => rfl
    | some g => rw [Option.bind_some, Scan.rewritten?_of_nothing (nothing path mem g read)]
  have settled : ∀ path ∈ paths, t.againAt? p.disk path = none :=
    fun path mem => (f.rewriteAt?_eq mem).symm.trans (kept path mem)
  obtain ⟨result', q', ran'⟩ := ends
    (fun path mem g read => ⟨_, Scan.apply_of_nothing (nothing path mem g read)⟩) now
  have second := fixes _ _ _ ran'
  refine ⟨result', q', ran', second.nothing_iff.mpr settled, ?_, fun path ne => ?_⟩
  · rw [second.reports, violations]
    refine List.flatMap_congr fun path mem => ?_
    rw [← f.reportAt_eq mem, Scan.reportAfter, kept path mem]
  · rw [second.files path ne]
    split
    · rename_i mem
      rw [settled path mem]
      rfl
    · rfl

/-! ### A project of one file -/

/-- The folder `/p` holds one file that is selected and can be written, and a place for the score. -/
@[mk_iff]
structure OneFile (path : String) (d : Disk) : Prop where
  tree : d.IsTree
  target : d.has (Path.join "/p" ".") = true
  selects : (select d "/p" "." [.str "**/*.tsx"] []).toOption = some [path]
  writable : d.Writable path path
  noScore : (ScoreRecord.read d "/p/cache").toOption = some none
  stand : d.FoldersFrom [] (Text.pathSegments "/p/cache")
  score : d.Writable (ScoreRecord.pathIn "/p/cache") "/p/cache/score.json"
  unwanted : (wants "/p" "." [.str "**/*.tsx"] [] "/p/cache/score.json").toOption = some false

instance (path : String) (d : Disk) : Decidable (OneFile path d) :=
  decidable_of_iff' _ (oneFile_iff path d)

namespace OneFile

variable {path : String}

theorem selected (h : OneFile path d) : select d "/p" "." [.str "**/*.tsx"] [] = .ok [path] :=
  eq_ok_of_toOption h.selects

theorem place_eq (h : OneFile path d) {e : Disk} {place : String}
    (found : e.locate? (ScoreRecord.pathIn "/p/cache") = some place) :
    place = "/p/cache/score.json" :=
  place_unique h.score.found found

/-- The place of the score is not selected, wherever it is found. -/
theorem apart (h : OneFile path d) (e : Disk) (place : String)
    (found : e.locate? (ScoreRecord.pathIn "/p/cache") = some place) :
    wants "/p" "." [.str "**/*.tsx"] [] place = .ok false := by
  rw [h.place_eq found]
  exact eq_ok_of_toOption h.unwanted

/-- A run that changes the file ends well. -/
theorem run_ends {p : Progress Unit} (h : OneFile path p.disk) {new : String × List Violation}
    (changed : (Scan.inFolder "**/*.tsx" true).rewriteAt? p.disk path = some new) :
    ∃ result q, (Scan.inFolder "**/*.tsx" true).run.run.run p = (.ok (result, {}), q) := by
  obtain ⟨f, read, run, -⟩ := rewriteAt?_eq_some.mp changed
  have files : (Scan.inFolder "**/*.tsx" true).repairsOf p.disk [path] = [toRepaired path new] := by
    simp [Scan.repairsOf, changed]
  refine Project.run_ends rfl rfl h.tree h.target (eq_ok_of_toOption h.noScore) h.selected ?_
    (by simp [files]) ?_ h.stand h.score
  · intro path' mem g read'
    obtain rfl := List.mem_singleton.mp mem
    obtain rfl : f = g := Option.some.inj (read.symm.trans read')
    exact ⟨_, run⟩
  · rw [files]
    refine writeAll_of_writable fun r mem => ?_
    rw [List.mem_singleton.mp mem]
    exact h.writable

end OneFile

theorem fileAt?_folderOf {path : String} (text : String) (given : path ≠ "/") :
    (folderOf path text).disk.fileAt? path = some (Text.utf8 text) := by
  unfold folderOf
  rw [Disk.fileAt?_put_file given, if_pos rfl]

/-- The file of the folder is read as the text that it has been given. -/
theorem OneFile.readSource?_eq {path text : String} (h : OneFile path (folderOf path text).disk)
    (given : path ≠ "/") (clean : Text.NoReturns text) :
    readSource? Syntax.parse (folderOf path text).disk path = SourceFile.parse path text :=
  readSource?_of_written h.tree (fileAt?_folderOf text given) clean

/-! ### A link that is fixed twice -/

/-- A link component around an anchor that opens a new window, each with a relation of its own. -/
def linkText : String :=
  "import L from \"next/link\";<L rel=\"up\"><a target=\"_blank\" rel=\"noopener noreferrer\">x</a></L>"

/-- The link without the anchor, whose relation is gone with it. -/
def unwrappedText : String :=
  "import L from \"next/link\";<L target=\"_blank\" rel=\"up\">x</L>"

/-- The link with both relations. -/
def mergedText : String :=
  "import L from \"next/link\";<L target=\"_blank\" rel=\"up noopener noreferrer\">x</L>"

/-- What the runs find in the folder of the link: the file with its anchor, and what is left of it
with a relation to be restored. -/
theorem link_found :
    OneFile "/p/a.tsx" (folderOf "/p/a.tsx" linkText).disk ∧
    (∃ f ∈ SourceFile.parse "/p/a.tsx" linkText,
      ∃ v ∈ (Scan.inFolder "**/*.tsx" true).fixable f,
        (Scan.inFolder "**/*.tsx" true).FixesOne f v .removeElement "" none
          [⟨28, 28, " target=\"_blank\""⟩, ⟨38, 88, "x"⟩] unwrappedText ∧
        Repair.FixNoReturns v) ∧
    (∃ f ∈ SourceFile.parse "/p/a.tsx" unwrappedText,
      ∃ v ∈ (Scan.inFolder "**/*.tsx" true).fixable f,
        (Scan.inFolder "**/*.tsx" true).FixesOne f v .replaceAttr "up noopener noreferrer"
          (some "rel") [⟨45, 53, "rel=\"up noopener noreferrer\""⟩] mergedText) ∧
    (SourceFile.parse "/p/a.tsx" mergedText).isSome ∧
    Text.NoReturns linkText ∧ unwrappedText ≠ linkText ∧ mergedText ≠ unwrappedText := by
  decide +kernel

theorem link_folder : OneFile "/p/a.tsx" (folderOf "/p/a.tsx" linkText).disk :=
  link_found.1

theorem link_unwrapped : ∃ f ∈ SourceFile.parse "/p/a.tsx" linkText, ∃ v,
    (Scan.inFolder "**/*.tsx" true).fixable f = [v] ∧ Repair.FixNoReturns v ∧
      (Scan.inFolder "**/*.tsx" true).rewritten? f = some (unwrappedText, [v]) := by
  obtain ⟨-, ⟨f, parsed, v, -, fixes, clean⟩, ⟨g, parses, -⟩, -, -, changed, -⟩ := link_found
  obtain ⟨-, path, text⟩ := Repair.parseWith_eq_some parsed
  refine ⟨f, parsed, v, fixes.one, clean, fixes.rewritten?_eq ?_ (text ▸ changed)⟩
  rw [path]
  exact Option.isSome_of_eq_some parses

theorem link_merged : ∃ f ∈ SourceFile.parse "/p/a.tsx" unwrappedText, ∃ v,
    (Scan.inFolder "**/*.tsx" true).rewritten? f = some (mergedText, [v]) := by
  obtain ⟨-, -, ⟨f, parsed, v, -, fixes⟩, parses, -, -, changed⟩ := link_found
  obtain ⟨-, path, text⟩ := Repair.parseWith_eq_some parsed
  exact ⟨f, parsed, v, fixes.rewritten?_eq (path ▸ parses) (text ▸ changed)⟩

/-- The link is fixed, and what is left of it is fixed again: the first fix takes a relation away, and
the second one puts it back. -/
theorem run_again_link : ∃ result q result' q',
    (Scan.inFolder "**/*.tsx" true).run.run.run (folderOf "/p/a.tsx" linkText) =
      (.ok (result, {}), q) ∧
    ((Scan.inFolder "**/*.tsx" true).again "tomorrow").run.run.run q = (.ok (result', {}), q') ∧
    result'.fixedCount = 1 ∧
    q.disk.fileAt? "/p/a.tsx" = some (Text.utf8 unwrappedText) ∧
    q'.disk.fileAt? "/p/a.tsx" = some (Text.utf8 mergedText) := by
  obtain ⟨f, parsed, v, one, noReturns, unwrapped⟩ := link_unwrapped
  obtain ⟨g, parsed', w, merged⟩ := link_merged
  have lines : Text.NoReturns linkText := link_found.2.2.2.2.1
  have read : readSource? Syntax.parse (folderOf "/p/a.tsx" linkText).disk "/p/a.tsx" = some f :=
    (link_folder.readSource?_eq (by decide) lines).trans parsed
  have first : (Scan.inFolder "**/*.tsx" true).rewriteAt? (folderOf "/p/a.tsx" linkText).disk
      "/p/a.tsx" = some (unwrappedText, [v]) := by
    rw [Scan.rewriteAt?, Scan.parser_inFolder, read, Option.bind_some, unwrapped]
  have second : (Scan.inFolder "**/*.tsx" true).againAt? (folderOf "/p/a.tsx" linkText).disk
      "/p/a.tsx" = some (mergedText, [w]) := by
    rw [Scan.againAt?, first, Option.bind_some, Scan.parser_inFolder]
    exact (congrArg (Option.bind · _) parsed').trans merged
  have clean : ∀ paths, select (folderOf "/p/a.tsx" linkText).disk "/p" "." [.str "**/*.tsx"] [] =
      .ok paths → (Scan.inFolder "**/*.tsx" true).FixesNoReturns
        (folderOf "/p/a.tsx" linkText).disk paths := by
    intro paths selected path mem f' read' v' found
    obtain rfl : ["/p/a.tsx"] = paths := Except.ok.inj (link_folder.selected.symm.trans selected)
    rw [List.mem_singleton.mp mem, Scan.parser_inFolder, read] at read'
    cases read'
    rw [one] at found
    exact List.mem_singleton.mp found ▸ noReturns
  obtain ⟨result, q, ran⟩ := link_folder.run_ends first
  obtain ⟨paths, place, selected, found, ends, fixes, -⟩ :=
    run_again rfl rfl link_folder.tree ran clean (link_folder.apart q.disk) "tomorrow" rfl
  obtain rfl : ["/p/a.tsx"] = paths := Except.ok.inj (link_folder.selected.symm.trans selected)
  obtain ⟨paths, -, left, -⟩ :=
    finished_of_run rfl rfl link_folder.tree ran clean (link_folder.apart q.disk)
  obtain rfl : ["/p/a.tsx"] = paths := Except.ok.inj (link_folder.selected.symm.trans left.selected)
  have file := left.file "/p/a.tsx" List.mem_cons_self
  rw [first] at file
  -- The second run finds the text that the first one has left, and can fix it.
  obtain ⟨g', read', fixed, -⟩ :=
    rewriteAt?_eq_some.mp ((left.rewriteAt?_eq List.mem_cons_self).trans second)
  obtain ⟨result', q', ran'⟩ := ends fun path mem g'' read'' => by
    rw [List.mem_singleton.mp mem, read'] at read''
    exact Option.some.inj read'' ▸ ⟨_, fixed⟩
  obtain ⟨again, -⟩ := fixes result' {} q' ran'
  refine ⟨result, q, result', q', ran, ran', ?_, file, ?_⟩
  · rw [again.counted, List.filterMap_cons, second]
    rfl
  · have score : place = "/p/cache/score.json" := link_folder.place_eq found
    rw [again.files _ (by simp [score]), if_pos List.mem_cons_self, second]
    rfl

end JsxAudit.Project
