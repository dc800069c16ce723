import JsxAudit.Proofs.Project.Lasting
import JsxAudit.Proofs.Project.Twins

/-!
The scores of run after run.

A history is made of rounds: runs that keep their scores in one folder, each with what others do to
the disk before it. `Scan.ends` says what a single run does to the file of the score: a run that
completes has read it and leaves its own score there, and any other run leaves the file alone. So each
run that completes reports the score of the last one before it (`visits_follow`), and what has been in
the file at first has no say in anything else (`visits_agree`), unless it cannot be read without a
fault: then no run of the history completes (`visits_break`). `scores_of_history` puts this together.
-/

namespace JsxAudit.Project

open Audit Cache Config Data Generation Report Resolution Source Storage Job

variable {σ : Type} {t : Scan σ} {folder : String} {p p' q : Progress σ} {d e : Disk}

/-! ### The file of the score -/

/-- What is in the file of the score. -/
def scoreFile (folder : String) (d : Disk) : Option (List UInt8) :=
  d.fileAt? (scorePlace folder)

/-- The file of the score, if there is one, is where its path leads to. -/
structure Reachable (folder : String) (d : Disk) : Prop where
  tree : d.IsTree
  found : (scoreFile folder d).isSome →
    d.locate? (ScoreRecord.pathIn folder) = some (scorePlace folder)

namespace Reachable

theorem readText?_eq (h : Reachable folder d) : d.readText? (ScoreRecord.pathIn folder) =
    ((scoreFile folder d).bind Text.decode?).map Text.withLineFeeds := by
  cases located : d.locate? (ScoreRecord.pathIn folder) with
  | some place =>
    obtain rfl := Disk.locate?_eq_normal located
    exact Disk.readText?_of_locate? located
  | none =>
    have absent : scoreFile folder d = none := by
      rw [← Option.not_isSome_iff_eq_none]
      intro some
      have reached := h.found some
      rw [located] at reached
      nomatch reached
    unfold Disk.readText? Disk.readBytes Disk.find?
    rw [located, absent]
    rfl

/-- What is read depends on the file alone. -/
theorem read_eq (h : Reachable folder d) (h' : Reachable folder e)
    (same : scoreFile folder e = scoreFile folder d) (room : Nat) :
    ScoreRecord.read e folder room = ScoreRecord.read d folder room := by
  have text : e.readText? (ScoreRecord.pathIn folder) = d.readText? (ScoreRecord.pathIn folder) := by
    rw [h.readText?_eq, h'.readText?_eq, same]
  unfold ScoreRecord.read
  rw [text]

/-- A file is found in a folder that is there. -/
theorem isSome_walk {reached segments : List String} (name : String)
    (here : d.isFolder (Path.ofSegments reached)) (stands : d.FoldersFrom reached segments) :
    (d.walk reached (segments ++ [name])).isSome := by
  induction segments generalizing reached with
  | nil =>
    rw [List.nil_append, Disk.walk, if_pos here]
    rfl
  | cons s rest ih =>
    rw [List.cons_append, Disk.walk, if_pos here]
    exact ih stands.1 stands.2

theorem of_stands (tree : d.IsTree) (stands : d.FoldersFrom [] (Text.pathSegments folder)) :
    Reachable folder d := by
  refine ⟨tree, fun _ => ?_⟩
  have walked := isSome_walk ScoreRecord.fileName Disk.isFolder_top stands
  rw [← Text.pathSegments_join folder ⟨by decide, by decide, by decide⟩] at walked
  obtain ⟨out, walked⟩ := Option.isSome_iff_exists.mp walked
  have located : d.locate? (ScoreRecord.pathIn folder) = some (Path.ofSegments out) :=
    Option.map_eq_some_iff.mpr ⟨out, walked, rfl⟩
  rw [located, scorePlace, placeOf, Disk.locate?_eq_normal located]

end Reachable

theorem reachable_of_twins (h : TwinDisks (scorePlace folder) folder d e) :
    Reachable folder d ∧ Reachable folder e :=
  ⟨.of_stands h.tree h.stands,
    .of_stands h.tree' (h.stands.mono fun _ stands => h.alike.folders ▸ stands)⟩

theorem reachable_of_stored {mid made : Disk} {place : String} {bytes : List UInt8}
    (tree : mid.IsTree) (stored : ScoreRecord.Stored folder place mid made d bytes) :
    Reachable folder d :=
  ⟨stored.tree tree, fun _ => stored.locate?.trans
    (congrArg some (Disk.locate?_eq_normal stored.locate?))⟩

/-- Making folders and writing elsewhere leave the file of the score as it is. -/
theorem lasting_scoreFile (folder : String) (file : Option (List UInt8)) :
    Lasting (fun path => placeOf path ≠ scorePlace folder)
      (fun d => Reachable folder d ∧ scoreFile folder d = file) where
  folders := by
    rintro d e path ⟨reach, rfl⟩ made
    have grown := Disk.makeFolders_spec made
    have same : scoreFile folder e = scoreFile folder d := congrFun grown.files _
    exact ⟨⟨reach.tree.makeFolders made, fun some =>
      Disk.locate?_mono grown.folders (reach.found (same ▸ some))⟩, same⟩
  files := by
    rintro d e path bytes ⟨reach, rfl⟩ apart written
    obtain ⟨place, w, rfl⟩ := Disk.writeBytes_eq_ok_iff.mp written
    have ne : scorePlace folder ≠ place := by
      rw [Disk.locate?_eq_normal w.found]
      exact apart.symm
    have same : scoreFile folder (d.put place (.file bytes)) = scoreFile folder d := by
      rw [scoreFile, Disk.fileAt?_put_file w.ne_top, if_neg ne]
      rfl
    refine ⟨⟨reach.tree.put_file w, fun some => ?_⟩, same⟩
    rw [Disk.locate?_congr (Disk.isFolder_put_file w.notFolder)]
    exact reach.found (same ▸ some)

/-! ### One run -/

namespace Scan

/-- Why a run fails that can read the score. -/
inductive Fails (t : Scan σ) (p : Progress σ) : RunError → Prop
  | noTarget : p.disk.has (Path.join t.directory t.target) = false → Fails t p (.noTarget t.target)
  /-- A pattern is no text. -/
  | unselected {fault : Fault} :
      select p.disk t.directory t.target t.config.included t.config.excluded = .error fault →
      Fails t p (.fault fault)
  /-- A text cannot be had, or a fix cannot be carried out. -/
  | unfixed {paths : List String} {fault : Fault} {q : Progress σ} : t.config.fix = true →
      select p.disk t.directory t.target t.config.included t.config.excluded = .ok paths →
      Leads (t.repair (t.survey p.disk paths))
        { p with notes := p.notes ++ t.surveyNotes p.disk paths } (.error (.fault fault)) q →
      Fails t p (.fault fault)
  /-- A selected file cannot be written. -/
  | unwritten {paths : List String} {path : String} {cause : DiskError} {q : Progress σ} :
      t.config.fix = true →
      select p.disk t.directory t.target t.config.included t.config.excluded = .ok paths →
      Leads (t.repair (t.survey p.disk paths))
        { p with notes := p.notes ++ t.surveyNotes p.disk paths } (.error (.unwritten path cause)) q →
      Fails t p (.unwritten path cause)
  /-- The score cannot be written. -/
  | unstored {r : ScoreRecord} {mid : Disk} {cause : DiskError} :
      r.write mid t.cacheFolder = .error cause → Fails t p (.disk cause)

/-- What a run that can read the score does to the file of the score. -/
inductive Ends (t : Scan σ) (previous : Option ScoreRecord) (p q : Progress σ) :
    Except RunError (ScanResult × TokenUsage) → Prop
  | completed {result : ScanResult} {usage : TokenUsage} : Reachable t.cacheFolder q.disk →
      result.previousScore = previous.map (·.score) →
      ScoreRecord.read q.disk t.cacheFolder t.room = .ok (some ⟨result.score, t.now⟩) →
      Ends t previous p q (.ok (result, usage))
  | failed {e : RunError} : Reachable t.cacheFolder q.disk →
      scoreFile t.cacheFolder q.disk = scoreFile t.cacheFolder p.disk → t.Fails p e →
      Ends t previous p q (.error e)

/-- Repairs fail by a fault, or with a file that cannot be written. -/
theorem repair_error {found : Survey} {e : RunError}
    (h : Leads (t.repair found) p (.error e) q) :
    (∃ fault, e = .fault fault) ∨ ∃ path cause, e = .unwritten path cause := by
  unfold repair at h
  rcases leads_bind.mp h with ⟨⟨resolved, used⟩, m, -, rest⟩ | ⟨e, texts, eq⟩
  · rcases leads_orFail_bind.mp rest with ⟨repaired, -, rest⟩ | ⟨cause, -, eq, -⟩
    · split at rest
      · cases (leads_pure.mp rest).1
      · rw [leads_get_bind, leads_modify_bind] at rest
        split at rest
        · cases (leads_throw.mp rest).1
          exact .inr ⟨_, _, rfl⟩
        · rw [leads_say_bind] at rest
          cases (leads_pure.mp rest).1
    · cases eq
      exact .inl ⟨_, rfl⟩
  · cases eq
    unfold resolveTexts at texts
    split at texts
    · cases (leads_pure.mp texts).1
    · split at texts
      · rw [leads_get_bind, leads_set_bind, leads_orFail_bind] at texts
        rcases texts with ⟨resolved, -, texts⟩ | ⟨fault, -, eq, -⟩
        · rw [leads_say_bind] at texts
          cases (leads_pure.mp texts).1
        · cases eq
          exact .inl ⟨_, rfl⟩
      · cases (leads_pure.mp texts).1

/-- The end of a run fails only if the score cannot be written. -/
theorem finish_error {found : Survey} {previous : Option ScoreRecord}
    {kept : List Violation × Nat × TokenUsage} {e : RunError}
    (h : Leads (t.finish found previous kept) p (.error e) q) :
    q = p ∧ ∃ cause, e = .disk cause ∧
      ScoreRecord.write { score := score kept.1, timestamp := t.now } p.disk t.cacheFolder =
        .error cause := by
  unfold finish storeScore at h
  rcases leads_bind.mp h with ⟨u, m, -, ended⟩ | ⟨e', storing, eq⟩
  · cases (leads_pure.mp ended).1
  · cases eq
    rw [leads_get_bind, leads_orFail_bind] at storing
    rcases storing with ⟨after, -, ended⟩ | ⟨cause, failed, eq, same⟩
    · cases (leads_modify.mp ended).1
    · cases eq
      exact ⟨same, cause, rfl, failed⟩

/-- The end of a run puts its own score in the place of the one that has been read. -/
theorem finish_ends {found : Survey} {previous : Option ScoreRecord}
    {kept : List Violation × Nat × TokenUsage} {m : Progress σ}
    {o : Except RunError (ScanResult × TokenUsage)} (reach : Reachable t.cacheFolder m.disk)
    (same : scoreFile t.cacheFolder m.disk = scoreFile t.cacheFolder p.disk)
    (h : Leads (t.finish found previous kept) m o q) : t.Ends previous p q o := by
  cases o with
  | error e =>
    obtain ⟨rfl, cause, rfl, failed⟩ := finish_error h
    exact .failed reach same (.unstored failed)
  | ok ended =>
    obtain ⟨after, written, rfl, rfl⟩ := finish_leads_ok.mp h
    obtain ⟨made, place, stored⟩ := ScoreRecord.write_eq_ok_iff.mp written
    exact .completed (reachable_of_stored reach.tree stored) rfl
      (stored.read (isShort_score kept.1 t.now) t.room)

/-- Repairs leave the file of the score as it is. -/
theorem repair_keeps {paths : List String} (reach : Reachable t.cacheFolder p.disk)
    (unwanted : wants t.directory t.target t.config.included t.config.excluded
      (scorePlace t.cacheFolder) = .ok false)
    (selected : select p.disk t.directory t.target t.config.included t.config.excluded = .ok paths)
    {m : Progress σ} (start : m.disk = p.disk)
    {o : Except RunError (List Violation × Nat × TokenUsage)}
    (h : Leads (t.repair (t.survey p.disk paths)) m o q) : Reachable t.cacheFolder q.disk ∧
      scoreFile t.cacheFolder q.disk = scoreFile t.cacheFolder p.disk := by
  have lasting := lasting_scoreFile t.cacheFolder (scoreFile t.cacheFolder p.disk)
  refine lasting.repair (placeOf_cache_ne t.cacheFolder) (fun path mem => ?_) h ?_
  · exact placeOf_selected reach.tree unwanted selected mem
  · rw [start]
    exact ⟨reach, rfl⟩

/-- A run that can read the score completes, and leaves its own score, or it fails for another
reason and leaves the file of the score as it was. -/
theorem ends (reach : Reachable t.cacheFolder p.disk)
    (unwanted : wants t.directory t.target t.config.included t.config.excluded
      (scorePlace t.cacheFolder) = .ok false)
    {previous : Option ScoreRecord}
    (read : ScoreRecord.read p.disk t.cacheFolder t.room = .ok previous)
    {o : Except RunError (ScanResult × TokenUsage)} (ran : Leads t.run p o q) :
    t.Ends previous p q o := by
  cases target : p.disk.has (Path.join t.directory t.target) with
  | false =>
    obtain ⟨rfl, rfl⟩ := (run_leads_of_not_has target).mp ran
    exact .failed reach rfl (.noTarget target)
  | true =>
    rw [run_leads_of_has target, read, leads_orFail_bind] at ran
    rcases ran with ⟨_, eq, ran⟩ | ⟨_, eq, -⟩
    · cases eq
      rcases leads_bind.mp ran with ⟨found, m, surveyed, ran⟩ | ⟨e, surveyed, rfl⟩
      · rcases surveyAll_leads.mp surveyed with ⟨paths, selected, eq, same⟩ | ⟨fault, -, eq, -⟩
        · cases eq
          have start : m.disk = p.disk := by rw [same]
          split at ran
          · rename_i on
            rcases leads_bind.mp ran with ⟨kept, n, repaired, ran⟩ | ⟨e, repaired, rfl⟩
            · obtain ⟨reach', file⟩ := repair_keeps reach unwanted selected start repaired
              exact finish_ends reach' file ran
            · obtain ⟨reach', file⟩ := repair_keeps reach unwanted selected start repaired
              rw [same] at repaired
              obtain ⟨fault, rfl⟩ | ⟨path, cause, rfl⟩ := repair_error repaired
              · exact .failed reach' file (.unfixed on selected repaired)
              · exact .failed reach' file (.unwritten on selected repaired)
          · exact finish_ends (start ▸ reach) (by rw [start]) ran
        · cases eq
      · rcases surveyAll_leads.mp surveyed with ⟨paths, -, eq, -⟩ | ⟨fault, failed, eq, rfl⟩
        · cases eq
        · cases eq
          exact .failed reach rfl (.unselected failed)
    · cases eq

/-- A run that cannot read the score without a fault ends there, if it has a target. -/
theorem run_of_unread {fault : Fault}
    (unread : ScoreRecord.read p.disk t.cacheFolder t.room = .error fault)
    {o : Except RunError (ScanResult × TokenUsage)} (ran : Leads t.run p o q) :
    q = p ∧ o = .error (if p.disk.has (Path.join t.directory t.target) then .fault fault
      else .noTarget t.target) := by
  cases target : p.disk.has (Path.join t.directory t.target) with
  | false =>
    obtain ⟨rfl, rfl⟩ := (run_leads_of_not_has target).mp ran
    exact ⟨rfl, rfl⟩
  | true =>
    rw [run_leads_of_has target, unread, leads_orFail_bind] at ran
    rcases ran with ⟨_, eq, -⟩ | ⟨_, eq, rfl, rfl⟩
    · cases eq
    · cases eq
      exact ⟨rfl, rfl⟩

end Scan

/-! ### Scores that cannot be read -/

/-- Why the score cannot be read without a fault: its file is nested too deeply, or it holds a
number that is larger than all whole numbers, or less. -/
inductive Illegible (folder : String) (room : Nat) (d : Disk) : Fault → Prop
  | tooDeep {text : String} : d.readText? (ScoreRecord.pathIn folder) = some text →
      Json.tooDeep room text = true → Illegible folder room d .endless
  | overflows {text : String} {document : Value} {x : Float} :
      d.readText? (ScoreRecord.pathIn folder) = some text → Json.tooDeep room text = false →
      Json.read? text = some document → document.field? "score" = some (.float x) →
      Decimal.truncate? x = none → x.isNaN = false → Illegible folder room d .tooLarge

theorem wholeNumber_eq_tooLarge_iff {v : Value} : v.wholeNumber = .error .tooLarge ↔
    ∃ x, v = .float x ∧ Decimal.truncate? x = none ∧ x.isNaN = false := by
  constructor
  · intro h
    cases v with
    | float x =>
      unfold Value.wholeNumber at h
      dsimp only at h
      refine ⟨x, rfl, ?_⟩
      cases whole : Decimal.truncate? x with
      | some n =>
        rw [whole] at h
        cases h
      | none =>
        rw [whole] at h
        cases nan : x.isNaN with
        | false => exact ⟨rfl, rfl⟩
        | true =>
          rw [nan] at h
          cases h
    | str s =>
      unfold Value.wholeNumber at h
      dsimp only at h
      cases number : Text.readInteger? s <;> rw [number] at h <;> cases h
    | _ => cases h
  · rintro ⟨x, rfl, whole, nan⟩
    rw [Value.wholeNumber, whole, nan]
    rfl

theorem ofValue_eq_error_iff {document : Value} {fault : Fault} :
    ScoreRecord.ofValue document = .error fault ↔ fault = .tooLarge ∧
      ∃ x, document.field? "score" = some (.float x) ∧ Decimal.truncate? x = none ∧
        x.isNaN = false := by
  unfold ScoreRecord.ofValue
  cases field : document.field? "score" with
  | none => simp
  | some score =>
    have large := @wholeNumber_eq_tooLarge_iff score
    simp only [Option.some.injEq]
    rw [← large]
    cases score.wholeNumber with
    | ok n => simp
    | error cause => cases cause <;> simp [eq_comm]

/-- Nothing else keeps a score from being read. -/
theorem read_eq_error_iff {room : Nat} {fault : Fault} :
    ScoreRecord.read d folder room = .error fault ↔ Illegible folder room d fault := by
  unfold ScoreRecord.read
  cases text : d.readText? (ScoreRecord.pathIn folder) with
  | none =>
    constructor
    · intro failed
      cases failed
    · rintro (⟨found, -⟩ | ⟨found, -⟩) <;> cases text.symm.trans found
  | some text' =>
    dsimp only
    constructor
    · intro failed
      split at failed
      · rename_i deep
        cases failed
        exact .tooDeep text deep
      · rename_i shallow
        split at failed
        · cases failed
        · rename_i document read
          obtain ⟨rfl, x, field, whole, nan⟩ := ofValue_eq_error_iff.mp failed
          exact .overflows text (by simpa using shallow) read field whole nan
    · rintro (⟨found, deep⟩ | ⟨found, shallow, read, field, whole, nan⟩)
      · cases text.symm.trans found
        rw [if_pos deep]
      · cases text.symm.trans found
        rw [shallow, read]
        exact ofValue_eq_error_iff.mpr ⟨rfl, _, field, whole, nan⟩

/-! ### Histories -/

/-- A run, and what others do to the disk before it. -/
structure Round (σ : Type) where
  scan : Scan σ
  edit : Disk → Disk := id

/-- A run that has taken place. -/
structure Visit (σ : Type) where
  scan : Scan σ
  start : Progress σ
  outcome : Except RunError (ScanResult × TokenUsage)
  finish : Progress σ

def Round.visit (r : Round σ) (p : Progress σ) : Visit σ :=
  let start := { p with disk := r.edit p.disk }
  { scan := r.scan, start
    outcome := (r.scan.run.run.run start).1
    finish := (r.scan.run.run.run start).2 }

/-- What takes place in some rounds, each on the disk that the one before has left. -/
def visits : List (Round σ) → Progress σ → List (Visit σ)
  | [], _ => []
  | r :: rest, p => r.visit p :: visits rest (r.visit p).finish

/-- The score of a run that has completed. -/
def Visit.score? (v : Visit σ) : Option Int :=
  match v.outcome with
  | .ok (result, _) => some result.score
  | .error _ => none

/-- The score of the last run that has completed, or else the one before all of them. -/
def lastScore (initial : Option Int) (past : List (Visit σ)) : Option Int :=
  (past.filterMap Visit.score?).getLast?.or initial

theorem lastScore_cons (initial : Option Int) (v : Visit σ) (past : List (Visit σ)) :
    lastScore initial (v :: past) = lastScore (v.score?.or initial) past := by
  unfold lastScore
  cases score : v.score? with
  | none => rw [List.filterMap_cons_none score, Option.none_or]
  | some n =>
    rw [List.filterMap_cons_some score, List.getLast?_cons, Option.some_or, Option.some_or]
    cases (past.filterMap Visit.score?).getLast? <;> rfl

/-- The run keeps its score in the folder, in a file that it does not look at otherwise, and that
others leave alone. -/
structure Round.Spares (folder : String) (room : Nat) (r : Round σ) : Prop where
  inFolder : r.scan.cacheFolder = folder
  room : r.scan.room = room
  unwanted : wants r.scan.directory r.scan.target r.scan.config.included r.scan.config.excluded
    (scorePlace folder) = .ok false
  edit : ∀ d, Reachable folder d →
    Reachable folder (r.edit d) ∧ scoreFile folder (r.edit d) = scoreFile folder d

/-- Neither the run nor what others do depends on the file of the score. -/
structure Round.Blind (folder : String) (r : Round σ) : Prop where
  scan : r.scan.Blind
  edit : ∀ d e, TwinDisks (scorePlace folder) folder d e →
    TwinDisks (scorePlace folder) folder (r.edit d) (r.edit e)

/-- A run reports a score as the one before if it completes. If it fails, it does so for a reason of its
own, and leaves the file of the score as it was. -/
structure Visit.Follows (folder : String) (last : Option Int) (v : Visit σ) : Prop where
  completed : ∀ result usage, v.outcome = .ok (result, usage) → result.previousScore = last
  failed : ∀ e, v.outcome = .error e →
    scoreFile folder v.finish.disk = scoreFile folder v.start.disk ∧ v.scan.Fails v.start e

/-- A run comes to nothing: it has no target, or it fails when it reads the score. -/
structure Visit.Breaks (fault : Fault) (v : Visit σ) : Prop where
  outcome : v.outcome = .error (if v.start.disk.has (Path.join v.scan.directory v.scan.target)
    then .fault fault else .noTarget v.scan.target)
  finish : v.finish = v.start

/-- Two runs find and do the same, but for the scores that they report as those before. -/
inductive Visit.Alike (folder : String) (v v' : Visit σ) : Prop
  | completed {a b : ScanResult × TokenUsage} : v.outcome = .ok a → v'.outcome = .ok b →
      SameButBefore a b → Progress.Twins folder v.finish v'.finish → Alike folder v v'
  | failed {e : RunError} : v.outcome = .error e → v'.outcome = .error e →
      Progress.Twins folder v.finish v'.finish → Alike folder v v'

section History

variable {rounds : List (Round σ)} {room : Nat} {fault : Fault}

/-- Where a run begins there is the file that the one before has left. -/
theorem Round.Spares.start {r : Round σ} (spares : r.Spares folder room)
    (reach : Reachable folder p.disk) :
    Reachable folder (r.visit p).start.disk ∧
      scoreFile folder (r.visit p).start.disk = scoreFile folder p.disk ∧
      ScoreRecord.read (r.visit p).start.disk folder room =
        ScoreRecord.read p.disk folder room := by
  have start : (r.visit p).start.disk = r.edit p.disk := rfl
  obtain ⟨reach', same⟩ := spares.edit p.disk reach
  rw [start]
  exact ⟨reach', same, reach.read_eq reach' same room⟩

theorem Round.leads (r : Round σ) (p : Progress σ) :
    Leads r.scan.run (r.visit p).start (r.visit p).outcome (r.visit p).finish :=
  Prod.mk.eta.symm

/-- After a run that can read the score, the next one can, and what it reads is the score of the run
if that has completed, and else what the run has read itself. -/
theorem Round.Spares.next {r : Round σ} (spares : r.Spares folder room)
    (reach : Reachable folder p.disk) {previous : Option ScoreRecord}
    (read : ScoreRecord.read p.disk folder room = .ok previous) :
    (r.visit p).Follows folder (previous.map (·.score)) ∧
      Reachable folder (r.visit p).finish.disk ∧ ∃ next,
        ScoreRecord.read (r.visit p).finish.disk folder room = .ok next ∧
          next.map (·.score) = (r.visit p).score?.or (previous.map (·.score)) := by
  obtain ⟨reach', -, same⟩ := spares.start reach
  have unwanted := spares.unwanted
  have ran := r.leads p
  have scan : (r.visit p).scan = r.scan := rfl
  obtain rfl := spares.inFolder
  obtain rfl := spares.room
  have ended := Scan.ends reach' unwanted (same.trans read) ran
  generalize r.visit p = v at *
  unfold Visit.score?
  rcases out : v.outcome with e | ⟨result, usage⟩ <;> rw [out] at ended
  · cases ended with
    | failed after file fails =>
      refine ⟨⟨?_, ?_⟩, after, previous, ?_, rfl⟩
      · intro result usage eq
        rw [out] at eq
        cases eq
      · intro e' eq
        rw [out] at eq
        cases eq
        exact ⟨file, scan ▸ fails⟩
      · rw [reach'.read_eq after file, same, read]
  · cases ended with
    | completed after before stored =>
      refine ⟨⟨?_, ?_⟩, after, _, stored, rfl⟩
      · intro result' usage' eq
        rw [out] at eq
        cases eq
        exact before
      · intro e eq
        rw [out] at eq
        cases eq

/-- Each run that completes reports the score of the last one before it that has completed. -/
theorem visits_follow (spares : ∀ r ∈ rounds, r.Spares folder room)
    (reach : Reachable folder p.disk) {initial : Option ScoreRecord}
    (read : ScoreRecord.read p.disk folder room = .ok initial)
    {past later : List (Visit σ)} {v : Visit σ} (h : visits rounds p = past ++ v :: later) :
    v.Follows folder (lastScore (initial.map (·.score)) past) := by
  induction rounds generalizing p initial past with
  | nil =>
    have some : past ++ v :: later ≠ [] := by simp
    exact absurd h.symm some
  | cons r rest ih =>
    obtain ⟨follows, reach', next, read', score⟩ := (spares r List.mem_cons_self).next reach read
    cases past with
    | nil =>
      obtain ⟨rfl, -⟩ := List.cons.inj h
      exact follows
    | cons first past =>
      obtain ⟨rfl, others⟩ := List.cons.inj h
      rw [lastScore_cons, ← score]
      exact ih (fun r mem => spares r (List.mem_cons_of_mem _ mem)) reach' read' others

/-- If the score cannot be read, no run completes, and the file stays. -/
theorem visits_break (spares : ∀ r ∈ rounds, r.Spares folder room) (reach : Reachable folder p.disk)
    (unread : ScoreRecord.read p.disk folder room = .error fault) :
    ∀ v ∈ visits rounds p, v.Breaks fault := by
  induction rounds generalizing p with
  | nil => exact fun v mem => nomatch mem
  | cons r rest ih =>
    have own := spares r List.mem_cons_self
    obtain ⟨reach', -, same⟩ := own.start reach
    have ran := r.leads p
    have unread' := same.trans unread
    rw [← own.inFolder, ← own.room] at unread'
    obtain ⟨stays, outcome⟩ := Scan.run_of_unread unread' ran
    intro v mem
    rcases List.mem_cons.mp mem with rfl | mem
    · exact ⟨outcome, stays⟩
    · refine ih (fun r mem => spares r (List.mem_cons_of_mem _ mem)) ?_ ?_ v mem
      · exact stays ▸ reach'
      · rw [stays, same, unread]

/-- Runs that begin as twins end as twins, if both can read the score. -/
theorem Round.Blind.visit {r : Round σ} (blind : r.Blind folder) (own : r.Spares folder room)
    (twins : Progress.Twins folder p p') {previous previous' : Option ScoreRecord}
    (read : ScoreRecord.read p.disk folder room = .ok previous)
    (read' : ScoreRecord.read p'.disk folder room = .ok previous') :
    (r.visit p).Alike folder (r.visit p') ∧
      Progress.Twins folder (r.visit p).finish (r.visit p').finish := by
  obtain ⟨reach, reach'⟩ := reachable_of_twins twins.disks
  have starts : Progress.Twins folder (r.visit p).start (r.visit p').start :=
    ⟨twins.state, twins.notes, blind.edit _ _ twins.disks⟩
  have before := (own.start reach).2.2.trans read
  have before' := (own.start reach').2.2.trans read'
  have ran := r.leads p
  have ran' := r.leads p'
  obtain rfl := own.inFolder
  obtain rfl := own.room
  generalize r.visit p = v at *
  generalize r.visit p' = v' at *
  cases run_agree blind.scan starts before before' with
  | ok left right same twins =>
    obtain ⟨out, rfl⟩ := Prod.mk.inj (ran.symm.trans left)
    obtain ⟨out', rfl⟩ := Prod.mk.inj (ran'.symm.trans right)
    exact ⟨.completed out out' same twins, twins⟩
  | error left right twins =>
    obtain ⟨out, rfl⟩ := Prod.mk.inj (ran.symm.trans left)
    obtain ⟨out', rfl⟩ := Prod.mk.inj (ran'.symm.trans right)
    exact ⟨.failed out out' twins, twins⟩

/-- Two histories that begin with different scores, both of which can be read, are the same but for
the scores that are reported. -/
theorem visits_agree (spares : ∀ r ∈ rounds, r.Spares folder room)
    (blind : ∀ r ∈ rounds, r.Blind folder)
    (twins : Progress.Twins folder p p') {initial initial' : Option ScoreRecord}
    (read : ScoreRecord.read p.disk folder room = .ok initial)
    (read' : ScoreRecord.read p'.disk folder room = .ok initial') :
    List.Forall₂ (Visit.Alike folder) (visits rounds p) (visits rounds p') := by
  induction rounds generalizing p p' initial initial' with
  | nil => exact .nil
  | cons r rest ih =>
    have own := spares r List.mem_cons_self
    obtain ⟨reach, reach'⟩ := reachable_of_twins twins.disks
    obtain ⟨alike, twins'⟩ := (blind r List.mem_cons_self).visit own twins read read'
    obtain ⟨-, -, next, after, -⟩ := own.next reach read
    obtain ⟨-, -, next', after', -⟩ := own.next reach' read'
    exact .cons alike (ih (fun r mem => spares r (List.mem_cons_of_mem _ mem))
      (fun r mem => blind r (List.mem_cons_of_mem _ mem)) twins' after after')

/-- The scores of a history. If what is in the file of the score at first can be read, be it a
score, no score or nothing of the kind, then every run either completes, and reports the score of the
last run before it that has completed (or else what has been in the file), or fails for a reason of
its own and leaves the file as it was. Whatever else of that kind had been in the file at first, all
runs would have come to the same but for the scores that are reported. If the file is nested too
deeply or holds a number beyond all whole numbers, no run completes, and the file stays as it is. -/
theorem scores_of_history (spares : ∀ r ∈ rounds, r.Spares folder room)
    (reach : Reachable folder p.disk) :
    ((∀ fault, ¬ Illegible folder room p.disk fault) → ∃ initial,
      ScoreRecord.read p.disk folder room = .ok initial ∧
      (∀ past v later, visits rounds p = past ++ v :: later →
        v.Follows folder (lastScore (initial.map (·.score)) past)) ∧
      ∀ p', Progress.Twins folder p p' → (∀ fault, ¬ Illegible folder room p'.disk fault) →
        (∀ r ∈ rounds, r.Blind folder) →
          List.Forall₂ (Visit.Alike folder) (visits rounds p) (visits rounds p')) ∧
    ∀ fault, Illegible folder room p.disk fault → ∀ v ∈ visits rounds p, v.Breaks fault := by
  have legible {d : Disk} (none : ∀ fault, ¬ Illegible folder room d fault) :
      ∃ record, ScoreRecord.read d folder room = .ok record := by
    cases read : ScoreRecord.read d folder room with
    | ok record => exact ⟨record, rfl⟩
    | error fault => exact absurd (read_eq_error_iff.mp read) (none fault)
  constructor
  · intro none
    obtain ⟨initial, read⟩ := legible none
    refine ⟨initial, read, fun past v later h => visits_follow spares reach read h, ?_⟩
    intro p' twins none' blind
    obtain ⟨initial', read'⟩ := legible none'
    exact visits_agree spares blind twins read read'
  · intro fault illegible
    exact visits_break spares reach (read_eq_error_iff.mpr illegible)

end History

/-! ### Three runs -/

/-- A run without fixing, one whose target is not there, and one with fixing. -/
def threeRounds : List (Round Unit) :=
  [{ scan := Scan.inFolder "**/*.tsx" false },
    { scan := { Scan.inFolder "**/*.tsx" false with target := "gone" } },
    { scan := Scan.inFolder "**/*.tsx" true }]

/-- The folder `/p` with a button, and a score from before. -/
def scoredFolder : Progress Unit :=
  let p := folderOf "/p/a.tsx" "<button/>"
  { p with disk := p.disk.put "/p/cache/score.json" (.file (Text.utf8 "\x7b\"score\": 7\x7d")) }

/-- What there is to see of the three runs: the file of the score, which none of them looks at
otherwise, and the scores. -/
theorem scored_found :
    scorePlace "/p/cache" = "/p/cache/score.json" ∧
    (∀ r ∈ threeRounds, r.scan.cacheFolder = "/p/cache" ∧
      (wants r.scan.directory r.scan.target r.scan.config.included r.scan.config.excluded
        "/p/cache/score.json").toOption = some false ∧
      Path.resolve r.scan.directory r.scan.target ≠ "/p/cache/score.json") ∧
    scoredFolder.disk.IsTree ∧
    scoredFolder.disk.FoldersFrom [] (Text.pathSegments "/p/cache") ∧
    (folderOf "/p/a.tsx" "<button/>").disk.isFolder "/p/cache/score.json" = false ∧
    (ScoreRecord.read scoredFolder.disk "/p/cache").toOption = some (some ⟨7, ""⟩) ∧
    (ScoreRecord.read (folderOf "/p/a.tsx" "<button/>").disk "/p/cache").toOption = some none ∧
    (visits threeRounds scoredFolder).map Visit.score? = [some 99, none, some 100] := by
  decide +kernel

/-- With the score and without it, the disks are twins. -/
theorem scored_twins :
    Progress.Twins "/p/cache" scoredFolder (folderOf "/p/a.tsx" "<button/>") := by
  obtain ⟨place, -, tree, stands, free, -⟩ := scored_found
  refine ⟨rfl, rfl, ?_, tree, button_tree, stands⟩
  rw [place]
  exact Disk.alike_put_file free (Text.utf8 "\x7b\"score\": 7\x7d")

/-- The first run reports the score from before, and the third one that of the first. Without a score
from before, all three come to the same. -/
theorem scores_of_history_button : ∃ a b c, visits threeRounds scoredFolder = [a, b, c] ∧
    a.score? = some 99 ∧ b.score? = none ∧ c.score? = some 100 ∧
    a.Follows "/p/cache" (some 7) ∧ b.Follows "/p/cache" (some 99) ∧
    c.Follows "/p/cache" (some 99) ∧
    List.Forall₂ (Visit.Alike "/p/cache") (visits threeRounds scoredFolder)
      (visits threeRounds (folderOf "/p/a.tsx" "<button/>")) := by
  obtain ⟨place, rounds, tree, stands, free, before, without, scores⟩ := scored_found
  have plain : ∀ r ∈ threeRounds,
      r.edit = id ∧ r.scan.room = Json.usualRoom ∧ r.scan.services = none := by
    simp [threeRounds, Scan.inFolder]
  have spares : ∀ r ∈ threeRounds, r.Spares "/p/cache" Json.usualRoom := by
    intro r mem
    obtain ⟨inFolder, unwanted, -⟩ := rounds r mem
    obtain ⟨edit, room, -⟩ := plain r mem
    refine ⟨inFolder, room, place ▸ eq_ok_of_toOption unwanted, fun d reach => ?_⟩
    rw [edit]
    exact ⟨reach, rfl⟩
  have blind : ∀ r ∈ threeRounds, r.Blind "/p/cache" := by
    intro r mem
    obtain ⟨inFolder, unwanted, target⟩ := rounds r mem
    obtain ⟨edit, -, alone⟩ := plain r mem
    refine ⟨⟨?_, ?_, ?_⟩, fun d e twins => edit ▸ twins⟩
    · rw [inFolder, place]
      exact eq_ok_of_toOption unwanted
    · rw [inFolder, place]
      exact target
    · rw [alone]
      exact fun sv mem => nomatch mem
  have legible {d : Disk} {r : Option ScoreRecord}
      (read : (ScoreRecord.read d "/p/cache").toOption = some r) (fault : Fault) :
      ¬ Illegible "/p/cache" Json.usualRoom d fault := by
    intro illegible
    rw [read_eq_error_iff.mpr illegible] at read
    cases read
  obtain ⟨readable, -⟩ := scores_of_history spares (reachable_of_twins scored_twins.disks).1
  obtain ⟨initial, read, follow, alike⟩ := readable (legible before)
  obtain rfl : some ⟨7, ""⟩ = initial := by
    rw [read] at before
    exact (Option.some.inj before).symm
  obtain ⟨a, b, c, three⟩ : ∃ a b c, visits threeRounds scoredFolder = [a, b, c] :=
    ⟨_, _, _, rfl⟩
  rw [three] at scores
  obtain ⟨first, second, third⟩ : a.score? = some 99 ∧ b.score? = none ∧ c.score? = some 100 := by
    simpa using scores
  have afterFirst : lastScore (some 7) [a] = some 99 := by simp [lastScore, first]
  have afterSecond : lastScore (some 7) [a, b] = some 99 := by simp [lastScore, first, second]
  refine ⟨a, b, c, three, first, second, third, follow [] a [b, c] three, ?_, ?_,
    alike _ scored_twins (legible without) blind⟩
  · rw [← afterFirst]
    exact follow [a] b [c] three
  · rw [← afterSecond]
    exact follow [a, b] c [] three

end JsxAudit.Project
