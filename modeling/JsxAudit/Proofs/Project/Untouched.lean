import JsxAudit.Proofs.Data.Keyed
import JsxAudit.Proofs.Project.Rerun
import JsxAudit.Proofs.Repair.Kept
import JsxAudit.Proofs.Resolution.Turns
import JsxAudit.Proofs.Storage.Files

/-!
What a run leaves of a file.

Besides the files of its cache and of its score, a run writes nothing but the texts that fixes give
files. `run_leaves` says so for every run, with or without services, however it ends: a file has kept
its bytes, or it holds what fixes of its own violations have made of the text that was read.
-/

namespace JsxAudit.Project

open Audit Cache Config Data Generation Report Resolution Source Storage Job

variable {σ : Type} {t : Scan σ} {parser : TreeParser} {p q : Progress σ} {d e : Disk}
  {paths targets : List String}

/-! ### Files of the run itself -/

/-- The paths of the cache and of the score. -/
def Scan.ownPaths (t : Scan σ) : List String :=
  [ResultCache.path { folder := t.cacheFolder }, ScoreRecord.pathIn t.cacheFolder]

theorem changes_save {c : ResultCache} (mem : c.path ∈ targets) (d : Disk) :
    d.Changes targets (c.save d) := by
  unfold ResultCache.save
  cases made : d.makeFolders c.folder with
  | error cause => exact .refl targets d
  | ok m =>
    have grown := (Disk.makeFolders_spec made).changes targets
    dsimp only
    cases written : m.writeText c.path (ResultCache.document (c.entries d)) with
    | error cause => exact grown
    | ok e => exact grown.trans (Disk.changes_writeBytes written mem)

theorem changes_write {r : ScoreRecord} {folder : String} (mem : ScoreRecord.pathIn folder ∈ targets)
    (h : r.write d folder = .ok e) : d.Changes targets e := by
  obtain ⟨made, place, stored⟩ := ScoreRecord.write_eq_ok_iff.mp h
  have written := Disk.writeBytes_eq_ok_iff.mpr ⟨place, stored.writable, stored.put⟩
  exact ((Disk.makeFolders_spec stored.folders).changes targets).trans
    (Disk.changes_writeBytes written mem)

/-- From one session to a later one, nothing has changed but the file of the cache. -/
def KeepsFiles (targets : List String) (s : Session σ) (_ : List Unit) (s' : Session σ) : Prop :=
  s'.cache.folder = s.cache.folder ∧ (s.cache.path ∈ targets → s.disk.Changes targets s'.disk)

theorem path_of_folder {c c' : ResultCache} (h : c'.folder = c.folder) : c'.path = c.path := by
  rw [ResultCache.path, ResultCache.path, h]

theorem keepsFiles_store (sv : Services σ) (targets : List String) (rule key text : String)
    (s : Session σ) : KeepsFiles targets s [] (store sv rule key text s) := by
  refine ⟨rfl, fun mem => ?_⟩
  unfold store ResultCache.set
  dsimp only
  refine changes_save ?_ s.disk
  rw [path_of_folder]
  · exact mem
  · rfl

theorem keepsFiles_trail (sv : Services σ) (targets : List String) :
    Trail sv (fun _ _ _ => []) (KeepsFiles targets) where
  nothing cache disk := ⟨by rw [cache], fun _ => disk ▸ .refl _ _⟩
  trans first second :=
    ⟨second.1.trans first.1, fun mem =>
      (first.2 mem).trans (second.2 ((path_of_folder first.1).symm ▸ mem))⟩
  answer rule q s := by
    have loaded : KeepsFiles targets s [] { s with cache := s.cache.load s.disk } :=
      ⟨rfl, fun _ => .refl _ _⟩
    cases h : (cached? sv.locale q.key s).or q.known with
    | some text =>
      rw [answer_of_some h]
      exact loaded
    | none =>
      rw [answer_of_none h]
      unfold ask
      rcases sv.write q.request s.state with ⟨f | a, state⟩
      · exact loaded
      · dsimp only
        split
        · exact loaded
        · exact keepsFiles_store sv targets rule q.key a.text _

/-! ### Parts of a run -/

namespace Scan

/-- Resolving texts changes no file but that of the cache, and no violation but its fix. -/
theorem resolveTexts_leads_changes {files : List (String × SourceFile)} {vs : List Violation}
    {o : Except RunError (List Violation × TokenUsage)}
    (h : Leads (t.resolveTexts files vs) p o q) :
    p.disk.Changes t.ownPaths q.disk ∧ ∀ resolved usage, o = .ok (resolved, usage) →
      ∀ w ∈ resolved, ∃ v ∈ vs, w = { v with fix := w.fix } := by
  unfold resolveTexts at h
  have same : ∀ w ∈ vs, ∃ v ∈ vs, w = { v with fix := w.fix } := fun w mem => ⟨w, mem, rfl⟩
  split at h
  · obtain ⟨rfl, rfl⟩ := leads_pure.mp h
    refine ⟨.refl _ _, fun resolved usage eq => ?_⟩
    cases eq
    exact same
  · rename_i sv _
    split at h
    · rw [leads_get_bind] at h
      obtain ⟨s, begins⟩ : ∃ s : Session σ, s =
          ⟨p.state, p.disk, { folder := t.cacheFolder }, p.notes⟩ := ⟨_, rfl⟩
      rw [← begins] at h
      have kept := ((keepsFiles_trail sv t.ownPaths).all files vs s).2 (by simp [begins, ownPaths])
      rcases ran : resolveAll sv files vs s with ⟨outcome, after⟩
      rw [ran] at h kept
      rw [begins] at kept
      dsimp only at h
      rw [leads_set_bind, leads_orFail_bind] at h
      rcases h with ⟨⟨resolved, used⟩, rfl, h⟩ | ⟨fault, rfl, rfl, rfl⟩
      · rw [leads_say_bind] at h
        obtain ⟨rfl, rfl⟩ := leads_pure.mp h
        refine ⟨kept, fun resolved' usage eq => ?_⟩
        cases eq
        exact resolveEach_fix (by rw [← resolveAll_eq, ran])
      · exact ⟨kept, nofun⟩
    · obtain ⟨rfl, rfl⟩ := leads_pure.mp h
      refine ⟨.refl _ _, fun resolved usage eq => ?_⟩
      cases eq
      exact same

/-- Repairs change the file of the cache and then, unless they have failed, the files whose own
violations have been fixed. -/
theorem repair_leads_written {found : Survey}
    {o : Except RunError (List Violation × Nat × TokenUsage)} (h : Leads (t.repair found) p o q) :
    ∃ mid : Disk, p.disk.Changes t.ownPaths mid ∧ (q.disk = mid ∨
      ∃ resolved repaired,
        (∀ w ∈ resolved, ∃ v ∈ fixableOf t.config found.violations, w = { v with fix := w.fix }) ∧
        repairedFiles t.parser found.files resolved = .ok repaired ∧
        q.disk = (writeAll repaired mid).1) := by
  unfold repair at h
  rcases leads_bind.mp h with ⟨⟨resolved, used⟩, m, texts, rest⟩ | ⟨e, texts, -⟩
  · obtain ⟨changes, own⟩ := resolveTexts_leads_changes texts
    refine ⟨m.disk, changes, ?_⟩
    dsimp only at rest
    rw [leads_orFail_bind] at rest
    rcases rest with ⟨repaired, eq, rest⟩ | ⟨cause, -, -, rfl⟩
    · split at rest
      · obtain ⟨-, rfl⟩ := leads_pure.mp rest
        exact .inl rfl
      · rw [leads_get_bind, leads_modify_bind] at rest
        refine .inr ⟨resolved, repaired, own resolved used rfl, eq, ?_⟩
        split at rest
        · obtain ⟨-, rfl⟩ := leads_throw.mp rest
          rfl
        · rw [leads_say_bind] at rest
          obtain ⟨-, rfl⟩ := leads_pure.mp rest
          rfl
    · exact .inl rfl
  · exact ⟨q.disk, (resolveTexts_leads_changes texts).1, .inl rfl⟩

/-- The end of a run changes no file but that of the score. -/
theorem finish_leads_changes {found : Survey} {previous : Option ScoreRecord}
    {kept : List Violation × Nat × TokenUsage} {o : Except RunError (ScanResult × TokenUsage)}
    (h : Leads (t.finish found previous kept) p o q) : p.disk.Changes t.ownPaths q.disk := by
  unfold finish storeScore at h
  have stored {m : Progress σ} {o : Except RunError PUnit} (h : Leads (do
      let disk ← orFail .disk
        (ScoreRecord.write { score := score kept.1, timestamp := t.now } (← get).disk t.cacheFolder)
      modify fun p => { p with disk }) p o m) : p.disk.Changes t.ownPaths m.disk := by
    rw [leads_get_bind, leads_orFail_bind] at h
    rcases h with ⟨after, written, h⟩ | ⟨cause, -, -, rfl⟩
    · obtain ⟨-, rfl⟩ := leads_modify.mp h
      exact changes_write (by simp [ownPaths]) written
    · exact .refl _ _
  rcases leads_bind.mp h with ⟨u, m, storing, ended⟩ | ⟨e, storing, -⟩
  · obtain ⟨-, rfl⟩ := leads_pure.mp ended
    exact stored storing
  · exact stored storing

end Scan

/-! ### Files that are written -/

theorem repaired?_eq_some {vs : List Violation} {path : String} {f : SourceFile}
    {r : RepairedFile} (h : repaired? parser vs path f = .ok (some r)) :
    r.path = path ∧ ∃ applied, applied ≠ [] ∧
      Repair.apply parser f (vs.filter fun v => v.filePath = path && v.fix.isSome) =
        .ok (r.text, applied) := by
  obtain ⟨⟨text, applied⟩, run, h⟩ := exists_of_bind_eq_ok h
  by_cases kept : applied.isEmpty || text = f.text
  · simp [pure, Except.pure, kept] at h
  · simp only [pure, Except.pure, kept] at h
    cases h
    refine ⟨rfl, applied, ?_, run⟩
    rintro rfl
    exact kept rfl

/-- A repaired file holds what fixes have made of a file that has been read at its path. -/
theorem mem_repairedFiles {files : List (String × SourceFile)} {vs : List Violation}
    {repaired : List RepairedFile} (h : repairedFiles parser files vs = .ok repaired)
    {r : RepairedFile} (mem : r ∈ repaired) : ∃ f applied, files.lookup r.path = some f ∧ applied ≠ [] ∧
      Repair.apply parser f (vs.filter fun v => v.filePath = r.path && v.fix.isSome) =
        .ok (r.text, applied) := by
  obtain ⟨found, mapped, h⟩ := exists_of_bind_eq_ok h
  cases h
  obtain ⟨some', there, rfl⟩ := List.mem_filterMap.mp mem
  obtain ⟨⟨path, f⟩, known, eq⟩ := exists_of_mem_mapM mapped there
  obtain ⟨path', -, located⟩ := List.mem_filterMap.mp known
  obtain ⟨f', looked, same⟩ := Option.map_eq_some_iff.mp located
  cases same
  obtain ⟨rfl, applied, some, run⟩ := repaired?_eq_some eq
  exact ⟨f, applied, looked, some, run⟩

/-- Files that are written hold the new texts, as many of them as can be written, and all other
files stay. -/
theorem writeAll_files {files : List RepairedFile} (d : Disk)
    (located : ∀ r ∈ files, d.locate? r.path = some r.path) :
    (writeAll files d).1.isFolder = d.isFolder ∧ ∀ path,
      (writeAll files d).1.fileAt? path = d.fileAt? path ∨
        ∃ r ∈ files, r.path = path ∧
          (writeAll files d).1.fileAt? path = some (Text.utf8 r.text) := by
  induction files generalizing d with
  | nil => exact ⟨rfl, fun _ => .inl rfl⟩
  | cons r rest ih =>
    rw [writeAll]
    cases write : d.writeText r.path r.text with
    | error cause => exact ⟨rfl, fun _ => .inl rfl⟩
    | ok next =>
      have first := Disk.writtenAt_of_writeBytes (located r List.mem_cons_self) write
      obtain ⟨same, others⟩ := ih next fun x mem =>
        (Disk.locate?_congr first.folders x.path).trans (located x (List.mem_cons_of_mem _ mem))
      refine ⟨same.trans first.folders, fun path => ?_⟩
      dsimp only
      rcases others path with kept | ⟨x, mem, at_path, written⟩
      · rw [kept, first.file]
        split
        · rename_i here
          exact .inr ⟨r, List.mem_cons_self, here.symm, rfl⟩
        · exact .inl rfl
      · exact .inr ⟨x, List.mem_cons_of_mem _ mem, at_path, written⟩

/-! ### Whole runs -/

/-- The text of a file after fixes of its own violations, which may have been given other texts
since they were found. -/
structure Scan.FixedTo (t : Scan σ) (f : SourceFile) (text : String) (applied : List Violation) :
    Prop where
  on : t.config.fix = true
  some : applied ≠ []
  own : ∀ v ∈ applied, ∃ w ∈ t.fixable f, v = { w with fix := v.fix }
  run : Repair.apply t.parser f applied = .ok (text, applied)

/-- A file after a run that has started with a disk: as it was, or fixed. -/
def Scan.KeptOrFixed (t : Scan σ) (d e : Disk) (path : String) : Prop :=
  e.fileAt? path = d.fileAt? path ∨ ∃ f text applied, readSource? t.parser d path = some f ∧
    t.FixedTo f text applied ∧ e.fileAt? path = some (Text.utf8 text)

/-- The texts that are written are those of files that have been fixed. -/
theorem fixedTo_of_repairedFiles (on : t.config.fix = true) (nodup : paths.Nodup)
    {resolved : List Violation} {repaired : List RepairedFile}
    (own : ∀ w ∈ resolved, ∃ v ∈ fixableOf t.config (t.survey d paths).violations,
      w = { v with fix := w.fix })
    (h : repairedFiles t.parser (t.survey d paths).files resolved = .ok repaired)
    {r : RepairedFile} (mem : r ∈ repaired) :
    ∃ f applied, r.path ∈ paths ∧ readSource? t.parser d r.path = some f ∧
      t.FixedTo f r.text applied := by
  obtain ⟨f, applied, looked, some, run⟩ := mem_repairedFiles h mem
  have there : (r.path, f) ∈ readSources t.parser d paths := Keyed.mem_of_lookup looked
  obtain ⟨selected, read⟩ := mem_readSources.mp there
  refine ⟨f, applied, selected, read, on, some, fun v found => ?_, Repair.apply_applied run⟩
  obtain ⟨listed, here⟩ := List.mem_filter.mp (Repair.mem_of_mem_applied run found)
  obtain ⟨w, wanted, eq⟩ := own v listed
  refine ⟨w, ?_, eq⟩
  have at_path : w.filePath = r.path := by
    have same : v.filePath = w.filePath := by rw [eq]
    simp only [Bool.and_eq_true, decide_eq_true_eq] at here
    exact same.symm.trans here.1
  have placed : Placed (readSources t.parser d paths) := placed_readSources nodup
  rw [show (t.survey d paths).violations =
    checkAll t.rules ((readSources t.parser d paths).map (·.2)) from rfl, fixableOf_checkAll] at wanted
  obtain ⟨⟨path, g⟩, among, fixable⟩ := List.mem_flatMap.mp wanted
  obtain rfl : r.path = path :=
    at_path.symm.trans ((Scan.of_mem_fixable fixable).1.trans (placed.path _ among))
  cases (placed.lookup among).symm.trans looked
  exact fixable

/-- Repairs keep or fix every file but that of the cache. -/
theorem keptOrFixed_of_repair (start : p.disk = d) (on : t.config.fix = true) (nodup : paths.Nodup)
    (located : ∀ path ∈ paths, d.locate? path = some path)
    {o : Except RunError (List Violation × Nat × TokenUsage)}
    (h : Leads (t.repair (t.survey d paths)) p o q) {path : String}
    (apart : ∀ target ∈ t.ownPaths, q.disk.locate? target ≠ some path) :
    t.KeptOrFixed d q.disk path := by
  subst start
  obtain ⟨mid, changes, same | ⟨resolved, repaired, own, eq, written⟩⟩ :=
    Scan.repair_leads_written h
  · rw [same]
    exact .inl (changes.files path (same ▸ apart))
  · have fixed (r : RepairedFile) (mem : r ∈ repaired) :=
      fixedTo_of_repairedFiles on nodup own eq mem
    have places : ∀ r ∈ repaired, mid.locate? r.path = some r.path := by
      intro r mem
      obtain ⟨-, -, selected, -⟩ := fixed r mem
      exact Disk.locate?_mono changes.folders (located _ selected)
    obtain ⟨folders, files⟩ := writeAll_files mid places
    rw [← written] at folders files
    rcases files path with kept | ⟨r, mem, rfl, new⟩
    · refine .inl (kept.trans (changes.files path fun target mem => ?_))
      rw [← Disk.locate?_congr folders]
      exact apart target mem
    · obtain ⟨f, applied, -, read, made⟩ := fixed r mem
      exact .inr ⟨f, r.text, applied, read, made, new⟩

/-- A file that is not one of the run itself has kept its bytes after a run, or it has been fixed,
also if the run has failed. -/
theorem keptOrFixed_of_run (tree : p.disk.IsTree)
    {outcome : Except RunError (ScanResult × TokenUsage)} (ran : Leads t.run p outcome q)
    {path : String} (apart : ∀ target ∈ t.ownPaths, q.disk.locate? target ≠ some path) :
    t.KeptOrFixed p.disk q.disk path := by
  cases target : p.disk.has (Path.join t.directory t.target) with
  | false =>
    obtain ⟨-, rfl⟩ := (Scan.run_leads_of_not_has target).mp ran
    exact .inl rfl
  | true =>
    rw [Scan.run_leads_of_has target, leads_orFail_bind] at ran
    rcases ran with ⟨previous, -, ran⟩ | ⟨fault, -, -, rfl⟩
    · rcases leads_bind.mp ran with ⟨found, m, surveyed, ran⟩ | ⟨e, surveyed, -⟩
      · rcases Scan.surveyAll_leads.mp surveyed with ⟨paths, selected, eq, same⟩ | ⟨fault, -, eq, -⟩
        · cases eq
          have start : m.disk = p.disk := by rw [same]
          obtain ⟨nodup, located⟩ := located_of_select tree selected
          split at ran
          · rename_i on
            rcases leads_bind.mp ran with ⟨kept, n, repaired, ended⟩ | ⟨e, repaired, -⟩
            · have last := Scan.finish_leads_changes ended
              have before : t.KeptOrFixed p.disk n.disk path :=
                keptOrFixed_of_repair start on nodup located repaired fun target mem found =>
                  apart target mem (Disk.locate?_mono last.folders found)
              unfold Scan.KeptOrFixed
              rw [last.files path apart]
              exact before
            · exact keptOrFixed_of_repair start on nodup located repaired apart
          · rw [← start]
            exact .inl ((Scan.finish_leads_changes ran).files path apart)
        · cases eq
      · rcases Scan.surveyAll_leads.mp surveyed with ⟨paths, -, eq, -⟩ | ⟨fault, -, -, rfl⟩
        · cases eq
        · exact .inl rfl
    · exact .inl rfl

/-- A file that is not one of the run itself has kept its bytes after a run, whatever services the run
has and however it ends; or it has been fixed. In a file that has been fixed, the bytes of the text
that was read are still there, in their order, but for those that the splices of its fixes cut out.
The text that is read of a file is its text with a line feed for every other line break: nothing is
lost but carriage returns, and these are all lost. -/
theorem run_leaves (tree : p.disk.IsTree)
    {outcome : Except RunError (ScanResult × TokenUsage)}
    (ran : t.run.run.run p = (outcome, q)) {path : String} {bytes : List UInt8}
    (file : p.disk.fileAt? path = some bytes)
    (apart : ∀ target ∈ t.ownPaths, q.disk.locate? target ≠ some path) :
    q.disk.fileAt? path = some bytes ∨ ∃ content f text applied,
      Text.utf8 content = bytes ∧
      SourceFile.parseWith t.parser path (Text.withLineFeeds content) = some f ∧
      t.FixedTo f text applied ∧
      q.disk.fileAt? path = some (Text.utf8 text) ∧
      Repair.Kept (Text.utf8 (Text.withLineFeeds content)) (Text.utf8 text)
        (Repair.splicesOf t.parser f applied) ∧
      (bytes.filter (· ≠ 13)).Sublist (Text.utf8 (Text.withLineFeeds content)) ∧
      Text.NoReturns (Text.withLineFeeds content) ∧
      (13 ∉ bytes → Text.utf8 (Text.withLineFeeds content) = bytes) := by
  rcases keptOrFixed_of_run tree ran apart with kept | ⟨f, text, applied, read, fixed, written⟩
  · exact .inl (kept.trans file)
  · right
    rw [readSource?_of_fileAt? tree file] at read
    obtain ⟨lines, decoded, parsed⟩ := Option.bind_eq_some_iff.mp read
    obtain ⟨content, known, rfl⟩ := Option.map_eq_some_iff.mp decoded
    obtain rfl := Text.decode?_eq_some.mp known
    refine ⟨content, f, text, applied, rfl, parsed, fixed, written, ?_,
      Text.sublist_withLineFeeds content, Text.noReturns_withLineFeeds content, fun clean => ?_⟩
    · have kept := Repair.apply_kept fixed.run
      rwa [f.bytes_eq, (Repair.parseWith_eq_some parsed).2.2] at kept
    · rw [Text.withLineFeeds_of_not_mem (Text.noReturns_iff.mpr clean)]

/-- What a run leaves of the one file of a folder. -/
theorem OneFile.file_after {p : Progress Unit} {path : String} (h : OneFile path p.disk)
    (apart : path ≠ "/p/cache/score.json") {new : String × List Violation}
    (changed : (Scan.inFolder "**/*.tsx" true).rewriteAt? p.disk path = some new) :
    ∃ result q, (Scan.inFolder "**/*.tsx" true).run.run.run p = (.ok (result, {}), q) ∧
      q.disk.locate? (ScoreRecord.pathIn "/p/cache") = some "/p/cache/score.json" ∧
      q.disk.fileAt? path = some (Text.utf8 new.1) := by
  obtain ⟨result, q, ran⟩ := h.run_ends changed
  refine ⟨result, q, ran, ?_⟩
  have completes := Scan.completes_of_run rfl ran
  generalize left : q.disk = after at completes
  cases completes with
  | intro _ _ selected repairs stored =>
    obtain ⟨made, place, stored⟩ := ScoreRecord.write_eq_ok_iff.mp stored
    obtain ⟨nodup, located⟩ := located_of_select h.tree selected
    obtain rfl := h.place_eq stored.locate?
    obtain rfl := Except.ok.inj (h.selected.symm.trans selected)
    refine ⟨stored.locate?, ?_⟩
    rw [stored.fileAt?, if_neg apart, (repaired_of_repairs rfl nodup located repairs).fileAt?,
      if_pos List.mem_cons_self, changed]
    rfl

/-- A button with a carriage return in it is fixed, and its lines end without one then. -/
theorem returns_found :
    let text := "<button type=\"button\">\n</button>"
    OneFile "/p/a.tsx" (folderOf "/p/a.tsx" "<button>\r\n</button>").disk ∧
      (∃ f ∈ readSource? Syntax.parse (folderOf "/p/a.tsx" "<button>\r\n</button>").disk "/p/a.tsx",
        ∃ v ∈ (Scan.inFolder "**/*.tsx" true).fixable f,
          (Scan.inFolder "**/*.tsx" true).FixesOne f v .insertAttr "button" (some "type")
            [⟨7, 7, " type=\"button\""⟩] text ∧
          (SourceFile.parse f.path text).isSome ∧ text ≠ f.text) ∧
      Path.ofSegments (Text.normalSegments (Text.splitOn '/'
        (ResultCache.path { folder := "/p/cache" }))) = "/p/cache/cache.json" := by
  decide +kernel

/-- The line of the button is kept, but for the carriage return at its end. -/
theorem run_leaves_returns :
    let p := folderOf "/p/a.tsx" "<button>\r\n</button>"
    let read := Text.utf8 "<button>\n</button>"
    let left := Text.utf8 "<button type=\"button\">\n</button>"
    ∃ result q f applied, (Scan.inFolder "**/*.tsx" true).run.run.run p = (.ok (result, {}), q) ∧
      p.disk.fileAt? "/p/a.tsx" = some (Text.utf8 "<button>\r\n</button>") ∧
      q.disk.fileAt? "/p/a.tsx" = some left ∧
      (∀ target ∈ (Scan.inFolder "**/*.tsx" true).ownPaths,
        q.disk.locate? target ≠ some "/p/a.tsx") ∧
      (Scan.inFolder "**/*.tsx" true).FixedTo f "<button type=\"button\">\n</button>" applied ∧
      Repair.Kept read left (Repair.splicesOf Syntax.parse f applied) := by
  intro p read left
  obtain ⟨folder, ⟨f, found, v, -, fixes, parses, changed⟩, normal⟩ := returns_found
  have first : (Scan.inFolder "**/*.tsx" true).rewriteAt? p.disk "/p/a.tsx" =
      some ("<button type=\"button\">\n</button>", [v]) := by
    rw [Scan.rewriteAt?, Scan.parser_inFolder, found, Option.bind_some]
    exact fixes.rewritten?_eq parses changed
  obtain ⟨result, q, ran, score, file⟩ := folder.file_after (by decide) first
  have apart : ∀ target ∈ (Scan.inFolder "**/*.tsx" true).ownPaths,
      q.disk.locate? target ≠ some "/p/a.tsx" := by
    intro target mem located
    rcases List.mem_cons.mp mem with rfl | mem
    · have eq := (Disk.locate?_eq_normal located).trans normal
      simp at eq
    · rw [List.mem_singleton.mp mem] at located
      have eq := score.symm.trans located
      simp at eq
  have before : p.disk.fileAt? "/p/a.tsx" = some (Text.utf8 "<button>\r\n</button>") :=
    fileAt?_folderOf _ (by decide)
  rcases run_leaves folder.tree ran before apart with
    kept | ⟨content, g, text, applied, same, -, fixed, written, left', -⟩
  · have eq := Text.utf8_injective (Option.some.inj (kept.symm.trans file))
    simp at eq
  · obtain rfl := Text.utf8_injective same
    obtain rfl := Text.utf8_injective (Option.some.inj (written.symm.trans file))
    have lines : Text.withLineFeeds "<button>\r\n</button>" = "<button>\n</button>" := by decide
    rw [lines] at left'
    exact ⟨result, q, g, applied, ran, before, file, apart, fixed, left'⟩

end JsxAudit.Project
