import JsxAudit.Proofs.Project.FileByFile
import JsxAudit.Proofs.Resolution.Twins

/-!
Two runs on disks that differ in the file of the score alone.

`Agree` is about two jobs, each with its own progress: both end well, with values that are related,
or both fail with the same error, and in the end the two progresses differ again in the file of the
score alone. There is one lemma for each way to make a job of others, and one for each part of a run.
Of all the parts of a run only the first reads the score, so that two runs which can read it agree
but for the score that they report as the one before (`run_agree`).
-/

namespace JsxAudit.Project

open Audit Cache Config Data Generation Report Resolution Source Storage Job

variable {σ α β : Type} {t : Scan σ} {folder : String} {p p' q q' : Progress σ} {d e : Disk}
  {paths : List String}

/-- The place of the score in a folder. -/
def scorePlace (folder : String) : String :=
  placeOf (ScoreRecord.pathIn folder)

/-- The cache is not in the place of the score. -/
theorem placeOf_cache_ne (folder : String) :
    placeOf (ResultCache.path { folder }) ≠ scorePlace folder :=
  placeOf_join_ne folder ⟨by decide, by decide, by decide⟩ ⟨by decide, by decide, by decide⟩
    (by decide) (by decide) (by decide)

/-- The progresses differ in the file of the score alone. The folder of the score is there. -/
structure Progress.Twins (folder : String) (p p' : Progress σ) : Prop where
  state : p'.state = p.state
  notes : p'.notes = p.notes
  disks : TwinDisks (scorePlace folder) folder p.disk p'.disk

theorem Progress.Twins.say (h : Progress.Twins folder p p') (notes : List Note) :
    Progress.Twins folder { p with notes := p.notes ++ notes }
      { p' with notes := p'.notes ++ notes } :=
  ⟨h.state, congrArg (· ++ notes) h.notes, h.disks⟩

theorem Progress.Twins.withDisks (h : Progress.Twins folder p p')
    (disks : TwinDisks (scorePlace folder) folder d e) :
    Progress.Twins folder { p with disk := d } { p' with disk := e } :=
  ⟨h.state, h.notes, disks⟩

/-! ### Jobs that agree -/

/-- Both jobs end well, with related values, or both fail alike. They leave twins. -/
inductive Agree (folder : String) (related : α → β → Prop) (job : Job σ α) (job' : Job σ β)
    (p p' : Progress σ) : Prop
  | ok {a : α} {b : β} {q q' : Progress σ} : Leads job p (.ok a) q → Leads job' p' (.ok b) q' →
      related a b → Progress.Twins folder q q' → Agree folder related job job' p p'
  | error {e : RunError} {q q' : Progress σ} : Leads job p (.error e) q →
      Leads job' p' (.error e) q' → Progress.Twins folder q q' →
      Agree folder related job job' p p'

namespace Agree

variable {related : α → β → Prop} {job : Job σ α} {job' : Job σ β}

theorem pure {a : α} {b : β} (same : related a b) (h : Progress.Twins folder p p') :
    Agree folder related (Pure.pure a) (Pure.pure b) p p' :=
  .ok (leads_pure.mpr ⟨rfl, rfl⟩) (leads_pure.mpr ⟨rfl, rfl⟩) same h

theorem throw (e : RunError) (h : Progress.Twins folder p p') :
    Agree folder related (MonadExcept.throw e) (MonadExcept.throw e) p p' :=
  .error (leads_throw.mpr ⟨rfl, rfl⟩) (leads_throw.mpr ⟨rfl, rfl⟩) h

theorem bind {γ δ : Type} {after : γ → δ → Prop} {next : α → Job σ γ} {next' : β → Job σ δ}
    (first : Agree folder related job job' p p')
    (rest : ∀ {a b q q'}, related a b → Progress.Twins folder q q' →
      Agree folder after (next a) (next' b) q q') :
    Agree folder after (job >>= next) (job' >>= next') p p' := by
  cases first with
  | ok left right same twins =>
    cases rest same twins with
    | ok left' right' same' twins' =>
      exact .ok (leads_bind.mpr (.inl ⟨_, _, left, left'⟩))
        (leads_bind.mpr (.inl ⟨_, _, right, right'⟩)) same' twins'
    | error left' right' twins' =>
      exact .error (leads_bind.mpr (.inl ⟨_, _, left, left'⟩))
        (leads_bind.mpr (.inl ⟨_, _, right, right'⟩)) twins'
  | error left right twins =>
    exact .error (leads_bind.mpr (.inr ⟨_, left, rfl⟩)) (leads_bind.mpr (.inr ⟨_, right, rfl⟩)) twins

theorem get {next : Progress σ → Job σ α} {next' : Progress σ → Job σ β}
    (rest : Agree folder related (next p) (next' p') p p') :
    Agree folder related (MonadState.get >>= next) (MonadState.get >>= next') p p' := by
  cases rest with
  | ok left right same twins =>
    exact .ok (leads_get_bind.mpr left) (leads_get_bind.mpr right) same twins
  | error left right twins =>
    exact .error (leads_get_bind.mpr left) (leads_get_bind.mpr right) twins

theorem set {next : PUnit → Job σ α} {next' : PUnit → Job σ β}
    (rest : Agree folder related (next ⟨⟩) (next' ⟨⟩) q q') :
    Agree folder related (MonadState.set q >>= next) (MonadState.set q' >>= next') p p' := by
  cases rest with
  | ok left right same twins =>
    exact .ok (leads_set_bind.mpr left) (leads_set_bind.mpr right) same twins
  | error left right twins =>
    exact .error (leads_set_bind.mpr left) (leads_set_bind.mpr right) twins

/-- Both disks change. -/
theorem withDisks (h : Progress.Twins folder p p')
    (disks : TwinDisks (scorePlace folder) folder d e) :
    Agree folder Eq (MonadState.modifyGet fun p : Progress σ => (PUnit.unit, { p with disk := d }))
      (MonadState.modifyGet fun p : Progress σ => (PUnit.unit, { p with disk := e })) p p' :=
  .ok (leads_modify.mpr ⟨rfl, rfl⟩) (leads_modify.mpr ⟨rfl, rfl⟩) rfl (h.withDisks disks)

theorem say (n : Note) (h : Progress.Twins folder p p') :
    Agree folder Eq (Job.say n) (Job.say n) p p' :=
  .ok (leads_modify.mpr ⟨rfl, rfl⟩) (leads_modify.mpr ⟨rfl, rfl⟩) rfl (h.say [n])

/-- A result that both runs have, or the same failure. -/
theorem orFail {ε γ : Type} (failure : ε → RunError) (x : Except ε γ)
    (h : Progress.Twins folder p p') :
    Agree folder Eq (Job.orFail failure x) (Job.orFail failure x) p p' := by
  cases x with
  | ok a => exact pure rfl h
  | error e => exact throw (failure e) h

end Agree

/-! ### What is read -/

/-- The faults of patterns are of one kind. -/
theorem matchesSome_error {path : String} {patterns : List Value} {fault : Fault}
    (h : matchesSome path patterns = .error fault) : fault = .wrongType := by
  induction patterns with
  | nil => cases h
  | cons first rest ih =>
    cases first with
    | str pattern =>
      rw [matchesSome] at h
      split at h
      · cases h
      · exact ih h
    | _ => cases h; rfl

theorem isSelected_error {included excluded : List Value} {path : String} {fault : Fault}
    (h : isSelected included excluded path = .error fault) : fault = .wrongType := by
  unfold isSelected at h
  cases first : matchesSome path included with
  | error cause =>
    rw [first] at h
    cases h
    exact matchesSome_error first
  | ok wanted =>
    rw [first] at h
    cases wanted with
    | false => cases h
    | true =>
      cases second : matchesSome path excluded with
      | error cause =>
        simp only [second] at h
        cases h
        exact matchesSome_error second
      | ok out =>
        simp only [second] at h
        cases h

theorem keep_error {test : String → Except Fault Bool} {items : List (String × String)}
    {fault : Fault} (tests : ∀ path cause, test path = .error cause → cause = .wrongType)
    (h : keep test items = .error fault) : fault = .wrongType := by
  induction items with
  | nil => cases h
  | cons item rest ih =>
    unfold keep at h
    cases wanted : test item.2 with
    | error cause =>
      rw [wanted] at h
      cases h
      exact tests _ _ wanted
    | ok b =>
      rw [wanted] at h
      cases more : keep test rest with
      | error cause =>
        rw [more] at h
        cases h
        exact ih more
      | ok others =>
        rw [more] at h
        cases h

theorem select_error {directory target : String} {included excluded : List Value} {fault : Fault}
    (h : select d directory target included excluded = .error fault) : fault = .wrongType := by
  cases file : d.hasFile (Path.resolve directory target) with
  | true =>
    rw [select_of_file file] at h
    cases wanted : matchesSome (Text.pathName (Path.resolve directory target)) included with
    | error cause =>
      rw [wanted] at h
      cases h
      exact matchesSome_error wanted
    | ok b =>
      rw [wanted] at h
      cases h
  | false =>
    rw [select_of_folder file] at h
    exact keep_error (fun _ _ => isSelected_error) h

/-- A selected file is not in a place that is not wanted. -/
theorem placeOf_selected {directory target place : String} {included excluded : List Value}
    (tree : d.IsTree) (unwanted : wants directory target included excluded place = .ok false)
    (selected : select d directory target included excluded = .ok paths)
    {path : String} (mem : path ∈ paths) : placeOf path ≠ place := by
  have located := (located_of_select tree selected).2 path mem
  have same : placeOf path = path := (Disk.locate?_eq_normal located).symm
  rw [same]
  rintro rfl
  exact not_mem_select tree unwanted selected mem

/-- What a run looks at is not the score, and its services do not look there either. -/
structure Scan.Blind (t : Scan σ) : Prop where
  unwanted : wants t.directory t.target t.config.included t.config.excluded
    (scorePlace t.cacheFolder) = .ok false
  target : Path.resolve t.directory t.target ≠ scorePlace t.cacheFolder
  images : ∀ sv ∈ t.services, sv.Ignores (scorePlace t.cacheFolder)

namespace Scan.Blind

/-- The same files are selected. -/
theorem select_eq (blind : t.Blind) (h : TwinDisks (scorePlace t.cacheFolder) folder d e) :
    select e t.directory t.target t.config.included t.config.excluded =
      select d t.directory t.target t.config.included t.config.excluded := by
  have root : placeOf (Path.resolve t.directory t.target) ≠ scorePlace t.cacheFolder := by
    rw [placeOf_resolve]
    exact blind.target
  have file := h.alike.hasFile root
  have agree path (ne : path ≠ scorePlace t.cacheFolder) :=
    congrArg Option.isSome (h.alike.files path ne)
  cases left : select d t.directory t.target t.config.included t.config.excluded with
  | ok paths => exact select_of_agree h.tree h.tree' file agree blind.unwanted left
  | error fault =>
    cases right : select e t.directory t.target t.config.included t.config.excluded with
    | ok paths =>
      have back := select_of_agree h.tree' h.tree file.symm (fun path ne => (agree path ne).symm)
        blind.unwanted right
      cases left.symm.trans back
    | error fault' => rw [select_error left, select_error right]

/-- The selected files are read alike. -/
theorem readSource?_eq (blind : t.Blind) (h : TwinDisks (scorePlace t.cacheFolder) folder d e)
    (selected : select d t.directory t.target t.config.included t.config.excluded = .ok paths)
    {path : String} (mem : path ∈ paths) : readSource? t.parser e path = readSource? t.parser d path := by
  rw [readSource?, readSource?, h.alike.readText? (placeOf_selected h.tree blind.unwanted selected mem)]

end Scan.Blind

/-! ### Parts of a run -/

theorem surveyAll_agree (blind : t.Blind) (h : Progress.Twins t.cacheFolder p p') :
    Agree t.cacheFolder Eq t.surveyAll t.surveyAll p p' := by
  have same := blind.select_eq h.disks
  cases selected : select p.disk t.directory t.target t.config.included t.config.excluded with
  | error fault =>
    exact .error (Scan.surveyAll_leads.mpr (.inr ⟨fault, selected, rfl, rfl⟩))
      (Scan.surveyAll_leads.mpr (.inr ⟨fault, same.trans selected, rfl, rfl⟩)) h
  | ok paths =>
    have read := fun path (mem : path ∈ paths) => blind.readSource?_eq h.disks selected mem
    have sources : readSources t.parser p'.disk paths = readSources t.parser p.disk paths :=
      List.filterMap_congr fun path mem => by rw [read path mem]
    have unread : unreadPaths t.parser p'.disk paths = unreadPaths t.parser p.disk paths :=
      List.filter_congr fun path mem => by rw [read path mem]
    have surveys : t.survey p'.disk paths = t.survey p.disk paths := by
      rw [Scan.survey, Scan.survey, sources]
    have notes : t.surveyNotes p'.disk paths = t.surveyNotes p.disk paths := by
      rw [Scan.surveyNotes, Scan.surveyNotes, unread]
    refine .ok (Scan.surveyAll_leads.mpr (.inl ⟨paths, selected, rfl, rfl⟩))
      (Scan.surveyAll_leads.mpr (.inl ⟨paths, same.trans selected, rfl, rfl⟩)) surveys.symm ?_
    rw [notes]
    exact h.say _

theorem resolveTexts_agree (blind : t.Blind) (files : List (String × SourceFile))
    (vs : List Violation) (h : Progress.Twins t.cacheFolder p p') :
    Agree t.cacheFolder Eq (t.resolveTexts files vs) (t.resolveTexts files vs) p p' := by
  unfold Scan.resolveTexts
  split
  · exact .pure rfl h
  · rename_i sv given
    split
    · have twins : Resolution.Twins (scorePlace t.cacheFolder) t.cacheFolder
          ⟨p.state, p.disk, { folder := t.cacheFolder }, p.notes⟩
          ⟨p'.state, p'.disk, { folder := t.cacheFolder }, p'.notes⟩ :=
        ⟨h.state, rfl, h.notes, rfl, h.disks, placeOf_cache_ne t.cacheFolder⟩
      obtain ⟨same, after⟩ := resolveAll_twins (blind.images sv given) files vs twins
      refine .get ?_
      rcases ran : resolveAll sv files vs ⟨p.state, p.disk, { folder := t.cacheFolder }, p.notes⟩
        with ⟨outcome, s⟩
      rcases ran' : resolveAll sv files vs
        ⟨p'.state, p'.disk, { folder := t.cacheFolder }, p'.notes⟩ with ⟨outcome', s'⟩
      rw [ran, ran'] at same after
      dsimp only at same after ⊢
      subst same
      refine .set (.bind (.orFail .fault _ ⟨after.state, after.notes, after.disks⟩) ?_)
      rintro ⟨resolved, usage⟩ _ m m' rfl twins
      exact .bind (.say _ twins) fun _ twins => .pure rfl twins
    · exact .pure rfl h

/-- The same files are written. -/
theorem writeAll_twins {place : String} (files : List RepairedFile)
    (h : TwinDisks place folder d e) :
    (writeAll files e).2 = (writeAll files d).2 ∧
      TwinDisks place folder (writeAll files d).1 (writeAll files e).1 := by
  induction files generalizing d e with
  | nil => exact ⟨rfl, h⟩
  | cons r rest ih =>
    rw [writeAll, writeAll]
    obtain ⟨cause, left, right⟩ | ⟨d', e', left, right, h'⟩ :=
      h.writeBytes r.path (Text.utf8 r.text)
    · rw [Disk.writeText, Disk.writeText, left, right]
      exact ⟨rfl, h⟩
    · rw [Disk.writeText, Disk.writeText, left, right]
      exact ih h'

theorem repair_agree (blind : t.Blind) (found : Scan.Survey)
    (h : Progress.Twins t.cacheFolder p p') :
    Agree t.cacheFolder Eq (t.repair found) (t.repair found) p p' := by
  unfold Scan.repair
  refine .bind (resolveTexts_agree blind found.files _ h) ?_
  rintro ⟨fixable, usage⟩ _ m m' rfl twins
  refine .bind (.orFail _ _ twins) ?_
  rintro repaired _ m m' rfl twins
  split
  · exact .pure rfl twins
  · obtain ⟨same, disks⟩ := writeAll_twins repaired twins.disks
    refine .get ?_
    rcases wrote : writeAll repaired m.disk with ⟨disk, unwritten⟩
    rcases wrote' : writeAll repaired m'.disk with ⟨disk', unwritten'⟩
    rw [wrote, wrote'] at same disks
    dsimp only at same disks ⊢
    subst same
    refine .bind (.withDisks twins disks) fun _ twins => ?_
    split
    · exact .throw _ twins
    · exact .bind (.say _ twins) fun _ twins => .pure rfl twins

/-- The score is stored on both disks, or on none. -/
theorem storeScore_agree (score : Int) (h : Progress.Twins t.cacheFolder p p') :
    Agree t.cacheFolder Eq (t.storeScore score) (t.storeScore score) p p' := by
  have write {d : Disk} (stands : d.makeFolders t.cacheFolder = .ok d) (r : ScoreRecord) :
      r.write d t.cacheFolder =
        d.writeBytes (ScoreRecord.pathIn t.cacheFolder) (Text.utf8 (Json.write .ascii r.toValue)) := by
    unfold ScoreRecord.write
    rw [stands]
    rfl
  unfold Scan.storeScore
  refine .get ?_
  rw [write h.disks.makeFolders.1, write h.disks.makeFolders.2]
  obtain ⟨cause, left, right⟩ | ⟨d', e', left, right, disks⟩ :=
    h.disks.writeBytes (ScoreRecord.pathIn t.cacheFolder)
      (Text.utf8 (Json.write .ascii (ScoreRecord.toValue { score, timestamp := t.now })))
  · rw [left, right]
    exact .error (leads_throw_bind.mpr ⟨rfl, rfl⟩) (leads_throw_bind.mpr ⟨rfl, rfl⟩) h
  · rw [left, right]
    exact .withDisks h disks

/-! ### Whole runs -/

/-- The results are the same but for the score before. -/
def SameButBefore (r r' : ScanResult × TokenUsage) : Prop :=
  r' = ({ r.1 with previousScore := r'.1.previousScore }, r.2)

/-- Two runs that can read the score find and do the same, whatever scores they read. -/
theorem run_agree (blind : t.Blind) (h : Progress.Twins t.cacheFolder p p')
    {previous previous' : Option ScoreRecord}
    (read : ScoreRecord.read p.disk t.cacheFolder t.room = .ok previous)
    (read' : ScoreRecord.read p'.disk t.cacheFolder t.room = .ok previous') :
    Agree t.cacheFolder SameButBefore t.run t.run p p' := by
  have has : p'.disk.has (Path.join t.directory t.target) =
      p.disk.has (Path.join t.directory t.target) := h.disks.alike.has blind.target
  unfold Scan.run
  refine .get ?_
  rw [has]
  cases p.disk.has (Path.join t.directory t.target) with
  | false =>
    exact .error (leads_throw_bind.mpr ⟨rfl, rfl⟩) (leads_throw_bind.mpr ⟨rfl, rfl⟩) h
  | true =>
    simp only [Bool.not_true, Bool.false_eq_true, if_false, pure_bind]
    refine .get ?_
    rw [read, read']
    simp only [Job.orFail, pure_bind]
    refine .bind (surveyAll_agree blind h) ?_
    rintro found _ m m' rfl twins
    have finish (kept : List Violation × Nat × TokenUsage) {m m' : Progress σ}
        (twins : Progress.Twins t.cacheFolder m m') : Agree t.cacheFolder SameButBefore
        (t.finish found previous kept) (t.finish found previous' kept) m m' := by
      unfold Scan.finish
      exact .bind (storeScore_agree _ twins) fun _ twins => .pure rfl twins
    split
    · refine .bind (repair_agree blind found twins) ?_
      rintro kept _ m m' rfl twins
      exact finish kept twins
    · exact finish (found.violations, 0, {}) twins

end JsxAudit.Project
