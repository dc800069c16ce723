import JsxAudit.Proofs.Project.Rerun
import JsxAudit.Proofs.Report.Score

/-!
What a run that fixes does to the score.

The score counts what is reported about each file, before or after its own fixes, so that fixing can
only make it worse by way of a file whose fixes raise its own penalty: `score_of_fixing`. There are
such files. A fix can take away what another rule has been looking for (`score_of_fixing_layout`).
-/

namespace JsxAudit.Report

open Audit

/-- Reports that are no worse for any item are no worse together. -/
theorem penalty_flatMap_le {α : Type} {before after : α → List Violation} {items : List α}
    (each : ∀ a ∈ items, penalty (after a) ≤ penalty (before a)) :
    penalty (items.flatMap after) ≤ penalty (items.flatMap before) := by
  induction items with
  | nil => exact Nat.le_refl _
  | cons a rest ih =>
    rw [List.flatMap_cons, List.flatMap_cons, penalty_append, penalty_append]
    exact Nat.add_le_add (each a List.mem_cons_self)
      (ih fun b mem => each b (List.mem_cons_of_mem _ mem))

end JsxAudit.Report

namespace JsxAudit.Project

open Audit Cache Config Data Storage Source Report

variable {σ : Type} {t : Scan σ} {p q q' : Progress σ} {d : Disk} {paths : List String}

/-- Fixes that raise the penalty of no file they change raise that of no file. -/
theorem penalty_reportAfter_le {path : String}
    (h : ∀ new, t.rewriteAt? d path = some new →
      penalty (t.reportOn path new.1) ≤ penalty (t.reportAt d path)) :
    penalty (t.reportAfter d path) ≤ penalty (t.reportAt d path) := by
  unfold Scan.reportAfter
  split
  · rename_i new changed
    exact h new changed
  · exact Nat.le_refl _

/-- A run that fixes and one that does not, on the same disk: the score of the one is that of the
reports on all files after their own fixes, the score of the other that of the reports before.
Fixing does not make the score worse if no file that it changes has a higher penalty then. -/
theorem score_of_fixing (alone : t.services = none) (on : t.config.fix = true)
    (tree : p.disk.IsTree) {result result' : ScanResult} {usage usage' : Generation.TokenUsage}
    (fixed : t.run.run.run p = (.ok (result, usage), q)) {now : String}
    (scanned : (t.withoutFixing now).run.run.run p = (.ok (result', usage'), q')) :
    ∃ paths,
      select p.disk t.directory t.target t.config.included t.config.excluded = .ok paths ∧
      result.score = score (paths.flatMap (t.reportAfter p.disk)) ∧
      result'.score = score (paths.flatMap (t.reportAt p.disk)) ∧
      ((∀ path ∈ paths, ∀ new, t.rewriteAt? p.disk path = some new →
          penalty (t.reportOn path new.1) ≤ penalty (t.reportAt p.disk path)) →
        result'.score ≤ result.score) := by
  have completes := Scan.completes_of_run alone fixed
  have completes' := Scan.completes_of_run (t := t.withoutFixing now) alone scanned
  generalize q.disk = after at completes
  generalize q'.disk = after' at completes'
  cases completes with
  | @intro _ paths violations _ _ _ _ _ selected repairs _ =>
    cases completes' with
    | @intro _ paths' violations' _ _ _ _ _ selected' repairs' _ =>
      obtain rfl : paths = paths' := Except.ok.inj (selected.symm.trans selected')
      obtain ⟨nodup, located⟩ := located_of_select tree selected
      have left : violations = paths.flatMap (t.reportAfter p.disk) :=
        (repaired_of_repairs on nodup located repairs).reports (select_spec tree selected).1
      have found : violations' = paths.flatMap (t.reportAt p.disk) := by
        cases repairs' with
        | off _ => exact Scan.survey_violations (t.withoutFixing now) p.disk paths
        | nothing yes => cases yes
        | some yes => cases yes
      refine ⟨paths, selected, by rw [← left]; rfl, by rw [← found]; rfl, fun each => ?_⟩
      have le := score_anti (penalty_flatMap_le fun path mem =>
        penalty_reportAfter_le (each path mem))
      rw [← left, ← found] at le
      exact Int.ofNat_le.mpr le

/-! ### A layout that loses its skip link -/

/-- A run over one file that fixes nothing ends well. -/
theorem OneFile.scan_ends {path : String} {p : Progress Unit} (h : OneFile path p.disk)
    (now : String) :
    ∃ result q, ((Scan.inFolder "**/*.tsx" true).withoutFixing now).run.run.run p =
      (.ok (result, {}), q) := by
  have stored (bytes : List UInt8) : ScoreRecord.Stored "/p/cache" "/p/cache/score.json" p.disk
      p.disk (p.disk.put "/p/cache/score.json" (.file bytes)) bytes :=
    ⟨Disk.makeFoldersFrom_of_stand h.stand, h.score, rfl⟩
  obtain ⟨q, ran, -⟩ := Scan.run_of_completes
    (t := (Scan.inFolder "**/*.tsx" true).withoutFixing now) rfl
    (.intro h.target (eq_ok_of_toOption h.noScore) h.selected (.off rfl)
      (ScoreRecord.write_eq_ok_iff.mpr ⟨p.disk, _, stored _⟩))
  exact ⟨_, q, ran⟩

/-- A layout with a skip link, written as an anchor in a link component. -/
def layoutText : String :=
  "import L from \"next/link\";<L><a>Skip</a></L>"

/-- The layout without the anchor. -/
def plainLayoutText : String :=
  "import L from \"next/link\";<L>Skip</L>"

/-- What a run finds in the folder of the layout: the file, the anchor with its fix, and the scores
with and without the anchor. -/
theorem layout_found :
    OneFile "/p/layout.tsx" (folderOf "/p/layout.tsx" layoutText).disk ∧
    ((∃ f ∈ SourceFile.parse "/p/layout.tsx" layoutText,
      ∃ v ∈ (Scan.inFolder "**/*.tsx" true).fixable f,
        (Scan.inFolder "**/*.tsx" true).FixesOne f v .removeElement "" none [⟨29, 40, "Skip"⟩]
          plainLayoutText) ∧
      (SourceFile.parse "/p/layout.tsx" plainLayoutText).isSome ∧
      Text.NoReturns layoutText ∧ plainLayoutText ≠ layoutText) ∧
    score ((Scan.inFolder "**/*.tsx" true).reportOn "/p/layout.tsx" layoutText) = 98 ∧
    score ((Scan.inFolder "**/*.tsx" true).reportOn "/p/layout.tsx" plainLayoutText) = 97 := by
  decide +kernel

/-- Fixing the layout costs a point: its skip link is no longer taken for one. -/
theorem score_of_fixing_layout : ∃ result q result' q',
    (Scan.inFolder "**/*.tsx" true).run.run.run (folderOf "/p/layout.tsx" layoutText) =
      (.ok (result, {}), q) ∧
    ((Scan.inFolder "**/*.tsx" true).withoutFixing "today").run.run.run
      (folderOf "/p/layout.tsx" layoutText) = (.ok (result', {}), q') ∧
    result'.score = 98 ∧ result.score = 97 := by
  obtain ⟨folder, ⟨⟨f, parsed, v, -, fixes⟩, parses, clean, changed⟩, scores⟩ := layout_found
  obtain ⟨-, path, text⟩ := Repair.parseWith_eq_some parsed
  have read := folder.readSource?_eq (by decide) clean
  have new : (Scan.inFolder "**/*.tsx" true).rewriteAt? (folderOf "/p/layout.tsx" layoutText).disk
      "/p/layout.tsx" = some (plainLayoutText, [v]) := by
    rw [Scan.rewriteAt?, Scan.parser_inFolder, read, parsed, Option.bind_some]
    exact fixes.rewritten?_eq (path ▸ parses) (text ▸ changed)
  obtain ⟨result, q, fixed⟩ := folder.run_ends new
  obtain ⟨result', q', scanned⟩ := folder.scan_ends "today"
  obtain ⟨paths, selected, after, before, -⟩ :=
    score_of_fixing rfl rfl folder.tree fixed scanned
  obtain rfl : ["/p/layout.tsx"] = paths := Except.ok.inj (folder.selected.symm.trans selected)
  refine ⟨result, q, result', q', fixed, scanned, ?_, ?_⟩
  · rw [before, List.flatMap_singleton, Scan.reportAt, Scan.parser_inFolder, read]
    exact congrArg Int.ofNat scores.1
  · rw [after, List.flatMap_singleton, Scan.reportAfter, new]
    exact congrArg Int.ofNat scores.2

end JsxAudit.Project
