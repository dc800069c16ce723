import JsxAudit.Project.Scan

/-!
What a run without services comes to.

`Leads` says from which progress a job leads to which, and with what outcome; there is one lemma
for each way to make a job of others. With them a run that ends well is opened once and for all:
`Scan.Completes` names what has been read, repaired and stored, and `completes_of_run` and
`run_of_completes` say that a run ends well exactly if it completes. `disk_of_run_fails` says that
a run that fails while it reads leaves the disk as it was.
-/

namespace JsxAudit.Project

open Audit Cache Config Data Generation Report Resolution Storage

variable {σ α β : Type} {p q : Progress σ}

namespace Job

/-- The job leads from one progress to another, with an outcome. -/
def Leads (job : Job σ α) (p : Progress σ) (outcome : Except RunError α) (q : Progress σ) : Prop :=
  job.run.run p = (outcome, q)

variable {o : Except RunError α}

theorem leads_pure {a : α} : Leads (pure a) p o q ↔ o = .ok a ∧ q = p := by
  constructor
  · intro h
    cases h
    exact ⟨rfl, rfl⟩
  · rintro ⟨rfl, rfl⟩
    rfl

theorem leads_throw {e : RunError} : Leads (throw e) p o q ↔ o = .error e ∧ q = p := by
  constructor
  · intro h
    cases h
    exact ⟨rfl, rfl⟩
  · rintro ⟨rfl, rfl⟩
    rfl

/-- What would follow a failure is not reached. -/
theorem leads_throw_bind {e : RunError} {next : α → Job σ β} {o : Except RunError β} :
    Leads (throw e >>= next) p o q ↔ o = .error e ∧ q = p :=
  leads_throw (α := β)

theorem leads_modify {f : Progress σ → Progress σ} {o : Except RunError PUnit} :
    Leads (modify f) p o q ↔ o = .ok ⟨⟩ ∧ q = f p := by
  constructor
  · intro h
    cases h
    exact ⟨rfl, rfl⟩
  · rintro ⟨rfl, rfl⟩
    rfl

/-- A job after another one, if it is reached at all. -/
theorem leads_bind {job : Job σ α} {next : α → Job σ β} {o : Except RunError β} :
    Leads (job >>= next) p o q ↔
      (∃ a m, Leads job p (.ok a) m ∧ Leads (next a) m o q) ∨
        ∃ e, Leads job p (.error e) q ∧ o = .error e := by
  have split : (job >>= next).run.run p =
      match job.run.run p with
      | (.ok a, m) => (next a).run.run m
      | (.error e, m) => (.error e, m) := by
    simp only [ExceptT.run_bind, StateT.run_bind]
    change (match job.run.run p with | (_, _) => _) = _
    rcases job.run.run p with ⟨_ | _, _⟩ <;> rfl
  unfold Leads
  rw [split]
  rcases job.run.run p with ⟨e | a, m⟩
  · constructor
    · intro h
      cases h
      exact .inr ⟨e, rfl, rfl⟩
    · rintro (⟨a, m, first, -⟩ | ⟨e, first, rfl⟩)
      · cases first
      · cases first
        rfl
  · constructor
    · intro h
      exact .inl ⟨a, m, rfl, h⟩
    · rintro (⟨a, m, first, second⟩ | ⟨e, first, -⟩)
      · cases first
        exact second
      · cases first

theorem leads_bind_ok {job : Job σ α} {next : α → Job σ β} {b : β} :
    Leads (job >>= next) p (.ok b) q ↔
      ∃ a m, Leads job p (.ok a) m ∧ Leads (next a) m (.ok b) q := by
  rw [leads_bind]
  constructor
  · rintro (ends | ⟨e, -, failed⟩)
    · exact ends
    · cases failed
  · intro ends
    exact .inl ends

theorem leads_get_bind {next : Progress σ → Job σ β} {o : Except RunError β} :
    Leads (get >>= next) p o q ↔ Leads (next p) p o q :=
  Iff.rfl

theorem leads_set_bind {m : Progress σ} {next : PUnit → Job σ β} {o : Except RunError β} :
    Leads (set m >>= next) p o q ↔ Leads (next ⟨⟩) m o q :=
  Iff.rfl

theorem leads_modify_bind {f : Progress σ → Progress σ} {next : PUnit → Job σ β}
    {o : Except RunError β} : Leads (modify f >>= next) p o q ↔ Leads (next ⟨⟩) (f p) o q :=
  Iff.rfl

theorem leads_say_bind {n : Note} {next : Unit → Job σ β} {o : Except RunError β} :
    Leads (say n >>= next) p o q ↔ Leads (next ()) { p with notes := p.notes ++ [n] } o q :=
  Iff.rfl

theorem leads_orFail_bind {ε : Type} {failure : ε → RunError} {x : Except ε α}
    {next : α → Job σ β} {o : Except RunError β} :
    Leads (orFail failure x >>= next) p o q ↔
      (∃ a, x = .ok a ∧ Leads (next a) p o q) ∨
        ∃ e, x = .error e ∧ o = .error (failure e) ∧ q = p := by
  cases x with
  | ok a => simp [orFail]
  | error e =>
    have stops : Leads (orFail failure (.error e : Except ε α) >>= next) p o q ↔
        o = .error (failure e) ∧ q = p := leads_throw
    simp [stops]

/-- A loop that says something about each item. -/
theorem leads_sayAll {ι : Type} {note : ι → Note} {items : List ι} {o : Except RunError PUnit} :
    Leads (forIn items PUnit.unit fun i _ => do
        say (note i)
        pure (ForInStep.yield PUnit.unit)) p o q ↔
      o = .ok ⟨⟩ ∧ q = { p with notes := p.notes ++ items.map note } := by
  induction items generalizing p with
  | nil =>
    rw [List.forIn_nil, leads_pure]
    simp
  | cons i rest ih =>
    rw [List.forIn_cons, bind_assoc, leads_say_bind, pure_bind, ih]
    simp

end Job

open Job

namespace Scan

variable {t : Scan σ} {found : Survey}

/-! ### Parts of a run -/

/-- What is said about the files that are looked at. -/
def surveyNotes (t : Scan σ) (d : Disk) (paths : List String) : List Note :=
  .step ("🔍 Scanning " ++ toString paths.length ++ " file(s) in " ++ t.target) ::
    (unreadPaths t.parser d paths).map fun path =>
      .warning ("Skipped " ++ path ++ ": could not be parsed")

theorem surveyAll_leads {o : Except RunError Survey} :
    Leads t.surveyAll p o q ↔
      (∃ paths, select p.disk t.directory t.target t.config.included t.config.excluded = .ok paths ∧
        o = .ok (t.survey p.disk paths) ∧
        q = { p with notes := p.notes ++ t.surveyNotes p.disk paths }) ∨
      ∃ fault,
        select p.disk t.directory t.target t.config.included t.config.excluded = .error fault ∧
        o = .error (.fault fault) ∧ q = p := by
  unfold surveyAll
  rw [leads_get_bind, leads_orFail_bind]
  simp only [leads_say_bind]
  simp only [leads_bind, leads_sayAll, leads_pure]
  simp [surveyNotes]

/-- How the repairs of a run without services end: the violations that are left, the number of
fixes, and the disk. -/
inductive Repairs (t : Scan σ) (found : Survey) (d : Disk) : List Violation → Nat → Disk → Prop
  | off : t.config.fix = false → Repairs t found d found.violations 0 d
  | nothing : t.config.fix = true →
      repairedFiles t.parser found.files (fixableOf t.config found.violations) = .ok [] →
      Repairs t found d found.violations 0 d
  | some {files : List RepairedFile} {mid : Disk} : t.config.fix = true →
      repairedFiles t.parser found.files (fixableOf t.config found.violations) = .ok files → files ≠ [] →
      writeAll files d = (mid, none) →
      Repairs t found d (remaining t.parser t.rules found.violations files)
        (files.foldl (fun n r => n + r.applied) 0) mid

theorem resolveTexts_leads (alone : t.services = none) {files : List (String × Source.SourceFile)}
    {violations : List Violation} {o : Except RunError (List Violation × TokenUsage)} :
    Leads (t.resolveTexts files violations) p o q ↔ o = .ok (violations, {}) ∧ q = p := by
  unfold resolveTexts
  rw [alone]
  exact leads_pure

theorem repair_leads_ok (alone : t.services = none) (on : t.config.fix = true)
    {violations : List Violation} {count : Nat} {usage : TokenUsage} :
    Leads (t.repair found) p (.ok (violations, count, usage)) q →
      t.Repairs found p.disk violations count q.disk := by
  unfold repair
  rw [leads_bind_ok]
  rintro ⟨⟨fixable, used⟩, m, texts, rest⟩
  obtain ⟨same, rfl⟩ := (resolveTexts_leads alone).mp texts
  cases same
  rw [leads_orFail_bind] at rest
  rcases rest with ⟨files, repaired, rest⟩ | ⟨e, -, failed, -⟩
  · split at rest
    · rename_i none
      obtain ⟨ended, rfl⟩ := leads_pure.mp rest
      cases ended
      exact .nothing on (List.isEmpty_iff.mp none ▸ repaired)
    · rename_i some
      rw [leads_get_bind, leads_modify_bind] at rest
      cases unwritten : (writeAll files m.disk).2 with
      | some failure =>
        rw [unwritten] at rest
        cases (leads_throw.mp rest).1
      | none =>
        rw [unwritten] at rest
        rw [leads_say_bind] at rest
        obtain ⟨ended, rfl⟩ := leads_pure.mp rest
        cases ended
        exact .some on repaired (by simpa using some) (by rw [← unwritten])
  · cases failed

theorem repair_of_repairs (alone : t.services = none) (on : t.config.fix = true)
    {violations : List Violation} {count : Nat} {mid : Disk}
    (repairs : t.Repairs found p.disk violations count mid) :
    ∃ q, Leads (t.repair found) p (.ok (violations, count, {})) q ∧ q.disk = mid := by
  have texts : Leads (t.resolveTexts found.files (fixableOf t.config found.violations)) p
      (.ok (fixableOf t.config found.violations, {})) p :=
    (resolveTexts_leads alone).mpr ⟨rfl, rfl⟩
  unfold repair
  cases repairs with
  | off no =>
    rw [on] at no
    cases no
  | nothing _ none =>
    refine ⟨p, leads_bind_ok.mpr ⟨_, p, texts, leads_orFail_bind.mpr (.inl ⟨[], none, ?_⟩)⟩, rfl⟩
    exact leads_pure.mpr ⟨rfl, rfl⟩
  | @some files mid _ some ne written =>
    let done : Note := .step ("🛠️ Applied " ++
      toString (files.foldl (fun n r => n + r.applied) 0) ++ " fix(es) in " ++
      toString files.length ++ " file(s)")
    refine ⟨{ p with disk := mid, notes := p.notes ++ [done] },
      leads_bind_ok.mpr ⟨_, p, texts, leads_orFail_bind.mpr (.inl ⟨files, some, ?_⟩)⟩, rfl⟩
    rw [if_neg (by simpa using ne), leads_get_bind, leads_modify_bind, written]
    exact leads_say_bind.mpr (leads_pure.mpr ⟨rfl, rfl⟩)

theorem storeScore_leads_ok {score : Int} :
    Leads (t.storeScore score) p (.ok ()) q ↔
      ∃ after, ScoreRecord.write { score, timestamp := t.now } p.disk t.cacheFolder = .ok after ∧
        q = { p with disk := after } := by
  unfold storeScore
  rw [leads_get_bind, leads_orFail_bind]
  simp only [leads_modify]
  constructor
  · rintro (⟨after, written, -, rfl⟩ | ⟨e, -, failed, -⟩)
    · exact ⟨after, written, rfl⟩
    · cases failed
  · rintro ⟨after, written, rfl⟩
    exact .inl ⟨after, written, trivial, rfl⟩

/-! ### Whole runs -/

/-- What a run reports. -/
def resultOf (found : Survey) (previous : Option ScoreRecord) (violations : List Violation)
    (count : Nat) : ScanResult where
  violations
  filesScanned := found.files.length
  elementsScanned := found.elementCount
  score := score violations
  fixedCount := count
  previousScore := previous.map (·.score)

/-- The end of a run. -/
def finish (t : Scan σ) (found : Survey) (previous : Option ScoreRecord)
    (kept : List Violation × Nat × TokenUsage) : Job σ (ScanResult × TokenUsage) := do
  t.storeScore (score kept.1)
  return (resultOf found previous kept.1 kept.2.1, kept.2.2)

/-- A run without a target stops at once. -/
theorem run_leads_of_not_has (no : p.disk.has (Path.join t.directory t.target) = false)
    {o : Except RunError (ScanResult × TokenUsage)} :
    Leads t.run p o q ↔ o = .error (.noTarget t.target) ∧ q = p := by
  unfold run
  rw [leads_get_bind]
  simp only [no, Bool.not_false, if_true]
  exact leads_throw_bind

/-- A run with a target reads the score, surveys the files, and goes on with or without repairs. -/
theorem run_leads_of_has (target : p.disk.has (Path.join t.directory t.target) = true)
    {o : Except RunError (ScanResult × TokenUsage)} :
    Leads t.run p o q ↔ Leads (orFail .fault (ScoreRecord.read p.disk t.cacheFolder t.room) >>=
      fun previous => t.surveyAll >>= fun found =>
        if t.config.fix then t.repair found >>= fun kept => t.finish found previous kept
        else t.finish found previous (found.violations, 0, {})) p o q := by
  unfold run
  rw [leads_get_bind]
  simp only [target, Bool.not_true, Bool.false_eq_true, if_false, leads_get_bind, pure_bind,
    finish, resultOf]

/-- How a run without services ends well: its result, and the disk that it leaves. -/
inductive Completes (t : Scan σ) (d : Disk) : ScanResult → Disk → Prop
  | intro {previous : Option ScoreRecord} {paths : List String} {violations : List Violation}
      {count : Nat} {mid after : Disk}
      (target : d.has (Path.join t.directory t.target) = true)
      (before : ScoreRecord.read d t.cacheFolder t.room = .ok previous)
      (selected : select d t.directory t.target t.config.included t.config.excluded = .ok paths)
      (repairs : t.Repairs (t.survey d paths) d violations count mid)
      (stored : ScoreRecord.write { score := score violations, timestamp := t.now } mid
        t.cacheFolder = .ok after) :
      Completes t d (resultOf (t.survey d paths) previous violations count) after

theorem finish_leads_ok {previous : Option ScoreRecord} {kept : List Violation × Nat × TokenUsage}
    {result : ScanResult × TokenUsage} :
    Leads (t.finish found previous kept) p (.ok result) q ↔
      ∃ after, ScoreRecord.write { score := score kept.1, timestamp := t.now } p.disk
          t.cacheFolder = .ok after ∧
        q = { p with disk := after } ∧
        result = (resultOf found previous kept.1 kept.2.1, kept.2.2) := by
  unfold finish
  rw [leads_bind_ok]
  constructor
  · rintro ⟨u, m, first, ended⟩
    obtain ⟨after, stored, rfl⟩ := storeScore_leads_ok.mp first
    obtain ⟨eq, rfl⟩ := leads_pure.mp ended
    cases eq
    exact ⟨after, stored, rfl, rfl⟩
  · rintro ⟨after, stored, rfl, rfl⟩
    exact ⟨(), _, storeScore_leads_ok.mpr ⟨after, stored, rfl⟩, leads_pure.mpr ⟨rfl, rfl⟩⟩

/-- A run without services that ends well completes. -/
theorem completes_of_run (alone : t.services = none) {result : ScanResult} {usage : TokenUsage}
    (ended : Leads t.run p (.ok (result, usage)) q) : t.Completes p.disk result q.disk := by
  cases target : p.disk.has (Path.join t.directory t.target) with
  | false => cases ((run_leads_of_not_has target).mp ended).1
  | true =>
    rw [run_leads_of_has target, leads_orFail_bind] at ended
    rcases ended with ⟨previous, before, ended⟩ | ⟨e, -, failed, -⟩
    · obtain ⟨found, m, surveyed, ended⟩ := leads_bind_ok.mp ended
      rcases surveyAll_leads.mp surveyed with ⟨paths, selected, eq, rfl⟩ | ⟨fault, -, failed, -⟩
      · cases eq
        split at ended
        · rename_i on
          obtain ⟨⟨violations, count, used⟩, m, repaired, ended⟩ := leads_bind_ok.mp ended
          obtain ⟨after, stored, rfl, eq⟩ := finish_leads_ok.mp ended
          cases eq
          have repairs := repair_leads_ok alone on repaired
          exact .intro target before selected repairs stored
        · rename_i off
          obtain ⟨after, stored, rfl, eq⟩ := finish_leads_ok.mp ended
          cases eq
          exact .intro target before selected (.off (by simpa using off)) stored
      · cases failed
    · cases failed

/-- A run without services that can complete ends well, and uses no tokens. -/
theorem run_of_completes (alone : t.services = none) {result : ScanResult} {after : Disk}
    (completes : t.Completes p.disk result after) :
    ∃ q, Leads t.run p (.ok (result, {})) q ∧ q.disk = after := by
  cases completes with
  | @intro previous paths violations count mid after target before selected repairs stored =>
    let surveyed : Progress σ := { p with notes := p.notes ++ t.surveyNotes p.disk paths }
    have survey : Leads t.surveyAll p (.ok (t.survey p.disk paths)) surveyed :=
      surveyAll_leads.mpr (.inl ⟨paths, selected, rfl, rfl⟩)
    suffices rest : ∃ q, Leads (if t.config.fix then
        t.repair (t.survey p.disk paths) >>= fun kept => t.finish _ previous kept
        else t.finish _ previous ((t.survey p.disk paths).violations, 0, {})) surveyed
        (.ok (resultOf (t.survey p.disk paths) previous violations count, {})) q ∧
        q.disk = after by
      obtain ⟨q, ended, left⟩ := rest
      refine ⟨q, (run_leads_of_has target).mpr (leads_orFail_bind.mpr (.inl ⟨previous, before, ?_⟩)),
        left⟩
      exact leads_bind_ok.mpr ⟨_, _, survey, ended⟩
    by_cases on : t.config.fix = true
    · obtain ⟨m, repaired, rfl⟩ := repair_of_repairs (p := surveyed) alone on repairs
      rw [if_pos on]
      exact ⟨_, leads_bind_ok.mpr ⟨_, _, repaired, finish_leads_ok.mpr ⟨after, stored, rfl, rfl⟩⟩,
        rfl⟩
    · rw [if_neg on]
      cases repairs with
      | off _ => exact ⟨_, finish_leads_ok.mpr ⟨after, stored, rfl, rfl⟩, rfl⟩
      | nothing yes => exact absurd yes on
      | some yes => exact absurd yes on

/-! ### Failures -/

end Scan

end JsxAudit.Project
