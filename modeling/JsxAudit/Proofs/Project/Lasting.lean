import JsxAudit.Proofs.Project.Untouched

/-!
What every run keeps on a disk.

All that a run does to a disk is to make folders and to write files: those of its cache and of its
score, and files that it has selected. So what is kept by making folders, and by writing files at
such paths, is kept by the parts of a run, however they end (`Lasting.resolveTexts`,
`Lasting.repair`).
-/

namespace JsxAudit.Project

open Audit Cache Config Data Generation Report Resolution Source Storage Job

variable {σ : Type} {t : Scan σ} {p q : Progress σ} {d e : Disk} {paths : List String}

/-- A property of disks that is kept by making folders, and by writing files at some paths. -/
structure Lasting (free : String → Prop) (holds : Disk → Prop) : Prop where
  folders : ∀ {d e : Disk} {path : String}, holds d → d.makeFolders path = .ok e → holds e
  files : ∀ {d e : Disk} {path : String} {bytes : List UInt8}, holds d → free path →
    d.writeBytes path bytes = .ok e → holds e

/-- From one session to a later one a property of the disk has been kept. -/
def KeepsDisk (free : String → Prop) (holds : Disk → Prop) (s : Session σ) (_ : List Unit)
    (s' : Session σ) : Prop :=
  s'.cache.folder = s.cache.folder ∧ (free s.cache.path → holds s.disk → holds s'.disk)

namespace Lasting

variable {free : String → Prop} {holds : Disk → Prop}

/-! ### The cache -/

theorem save (lasting : Lasting free holds) {c : ResultCache} (allowed : free c.path)
    (h : holds d) : holds (c.save d) := by
  unfold ResultCache.save
  cases made : d.makeFolders c.folder with
  | error cause => exact h
  | ok m =>
    have grown := lasting.folders h made
    dsimp only
    cases written : m.writeText c.path (ResultCache.document (c.entries d)) with
    | error cause => exact grown
    | ok e => exact lasting.files grown allowed written

theorem store (lasting : Lasting free holds) (sv : Services σ) (rule key text : String)
    (s : Session σ) : KeepsDisk free holds s [] (store sv rule key text s) := by
  refine ⟨rfl, fun allowed h => ?_⟩
  unfold Resolution.store ResultCache.set
  exact lasting.save allowed h

theorem trail (lasting : Lasting free holds) (sv : Services σ) :
    Trail sv (fun _ _ _ => []) (KeepsDisk free holds) where
  nothing cache disk := ⟨by rw [cache], fun _ h => disk ▸ h⟩
  trans first second :=
    ⟨second.1.trans first.1, fun allowed h =>
      second.2 ((path_of_folder first.1).symm ▸ allowed) (first.2 allowed h)⟩
  answer rule q s := by
    have loaded : KeepsDisk free holds s [] { s with cache := s.cache.load s.disk } :=
      ⟨rfl, fun _ h => h⟩
    cases known : (cached? sv.locale q.key s).or q.known with
    | some text =>
      rw [answer_of_some known]
      exact loaded
    | none =>
      rw [answer_of_none known]
      unfold ask
      rcases sv.write q.request s.state with ⟨f | a, state⟩
      · exact loaded
      · dsimp only
        split
        · exact loaded
        · exact lasting.store sv rule q.key a.text _

/-! ### Parts of a run -/

theorem resolveTexts (lasting : Lasting free holds)
    (allowed : free (ResultCache.path { folder := t.cacheFolder }))
    {files : List (String × SourceFile)} {vs : List Violation}
    {o : Except RunError (List Violation × TokenUsage)}
    (h : Leads (t.resolveTexts files vs) p o q) (before : holds p.disk) : holds q.disk := by
  unfold Scan.resolveTexts at h
  split at h
  · obtain ⟨-, rfl⟩ := leads_pure.mp h
    exact before
  · rename_i sv _
    split at h
    · rw [leads_get_bind] at h
      have kept := ((lasting.trail sv).all files vs
        ⟨p.state, p.disk, { folder := t.cacheFolder }, p.notes⟩).2 allowed before
      rcases ran : resolveAll sv files vs ⟨p.state, p.disk, { folder := t.cacheFolder }, p.notes⟩
        with ⟨outcome, after⟩
      rw [ran] at h kept
      dsimp only at h
      rw [leads_set_bind, leads_orFail_bind] at h
      rcases h with ⟨resolved, -, h⟩ | ⟨fault, -, -, rfl⟩
      · rw [leads_say_bind] at h
        obtain ⟨-, rfl⟩ := leads_pure.mp h
        exact kept
      · exact kept
    · obtain ⟨-, rfl⟩ := leads_pure.mp h
      exact before

theorem writeAll (lasting : Lasting free holds) {files : List RepairedFile}
    (allowed : ∀ r ∈ files, free r.path) (h : holds d) : holds (writeAll files d).1 := by
  induction files generalizing d with
  | nil => exact h
  | cons r rest ih =>
    rw [Project.writeAll]
    cases written : d.writeText r.path r.text with
    | error cause => exact h
    | ok next =>
      exact ih (fun x mem => allowed x (List.mem_cons_of_mem _ mem))
        (lasting.files h (allowed r List.mem_cons_self) written)

/-- Repairs write at selected paths, besides the file of the cache. -/
theorem repair (lasting : Lasting free holds)
    (allowed : free (ResultCache.path { folder := t.cacheFolder }))
    (selected : ∀ path ∈ paths, free path)
    {o : Except RunError (List Violation × Nat × TokenUsage)}
    (h : Leads (t.repair (t.survey d paths)) p o q) (before : holds p.disk) : holds q.disk := by
  unfold Scan.repair at h
  rcases leads_bind.mp h with ⟨⟨resolved, used⟩, m, texts, rest⟩ | ⟨e, texts, -⟩
  · have mid := lasting.resolveTexts allowed texts before
    dsimp only at rest
    rcases leads_orFail_bind.mp rest with ⟨repaired, eq, rest⟩ | ⟨cause, -, -, rfl⟩
    · have at_selected : ∀ r ∈ repaired, free r.path := by
        intro r mem
        obtain ⟨f, -, looked, -⟩ := mem_repairedFiles eq mem
        exact selected _ (mem_readSources.mp (Keyed.mem_of_lookup looked)).1
      have written := lasting.writeAll at_selected mid
      split at rest
      · obtain ⟨-, rfl⟩ := leads_pure.mp rest
        exact mid
      · rw [leads_get_bind, leads_modify_bind] at rest
        split at rest
        · obtain ⟨-, rfl⟩ := leads_throw.mp rest
          exact written
        · rw [leads_say_bind] at rest
          obtain ⟨-, rfl⟩ := leads_pure.mp rest
          exact written
    · exact mid
  · exact lasting.resolveTexts allowed texts before

end Lasting

end JsxAudit.Project
