import JsxAudit.Proofs.Cache.Store
import JsxAudit.Proofs.Resolution.Turns
import JsxAudit.Proofs.Storage.Alike

/-!
Runs in sessions that differ in one file alone.

Twins are sessions whose disks are alike but for one file, which is not that of the cache. If the
images do not look at that file, what is done in one session is done in the other: texts are resolved
to the same violations, with the same requests, notes and entries, and the sessions stay twins
(`resolveAll_twins`).
-/

namespace JsxAudit.Resolution

open Audit Cache Data Generation Source Storage

variable {σ : Type} {sv : Services σ} {files : List (String × SourceFile)} {place folder : String}
  {s s' : Session σ} {v : Violation} {q : Query}

/-- The images do not depend on what is in a place. -/
def Services.Ignores (sv : Services σ) (place : String) : Prop :=
  ∀ d e, Disk.Alike place d e → sv.image d = sv.image e

/-- Both disks are trees and differ in a place alone. A folder is there. -/
structure TwinDisks (place folder : String) (d e : Disk) : Prop where
  alike : Disk.Alike place d e
  tree : d.IsTree
  tree' : e.IsTree
  stands : d.FoldersFrom [] (Text.pathSegments folder)

/-- A write ends the same way on both disks. -/
theorem TwinDisks.writeBytes {d e : Disk} (h : TwinDisks place folder d e)
    (path : String) (bytes : List UInt8) :
    (∃ cause, d.writeBytes path bytes = .error cause ∧ e.writeBytes path bytes = .error cause) ∨
      ∃ d' e', d.writeBytes path bytes = .ok d' ∧ e.writeBytes path bytes = .ok e' ∧
        TwinDisks place folder d' e' := by
  rcases h.alike.writeBytes path bytes with failed | ⟨d', e', left, right, alike⟩
  · exact .inl failed
  · obtain ⟨there, w, eq⟩ := Disk.writeBytes_eq_ok_iff.mp left
    have folders : d'.isFolder = d.isFolder := eq ▸ Disk.isFolder_put_file w.notFolder
    exact .inr ⟨d', e', left, right, alike, h.tree.writeBytes left, h.tree'.writeBytes right,
      h.stands.mono fun _ stands => folders ▸ stands⟩

/-- The folder need not be made on either disk. -/
theorem TwinDisks.makeFolders {d e : Disk} (h : TwinDisks place folder d e) :
    d.makeFolders folder = .ok d ∧ e.makeFolders folder = .ok e :=
  ⟨Disk.makeFoldersFrom_of_stand h.stands,
    Disk.makeFoldersFrom_of_stand (h.stands.mono fun _ stands => h.alike.folders ▸ stands)⟩

/-- The sessions differ in a place alone, which is not that of the cache. The folder of the cache is
there. -/
structure Twins (place folder : String) (s s' : Session σ) : Prop where
  state : s'.state = s.state
  cache : s'.cache = s.cache
  notes : s'.notes = s.notes
  inFolder : s.cache.folder = folder
  disks : TwinDisks place folder s.disk s'.disk
  apart : placeOf s.cache.path ≠ place

/-- Parts of a run come to the same in two sessions, and leave them twins. -/
def SameTwins {α : Type} (place folder : String) (x x' : α × Session σ) : Prop :=
  x'.1 = x.1 ∧ Twins place folder x.2 x'.2

namespace Twins

theorem withState (h : Twins place folder s s') (state : σ) :
    Twins place folder { s with state } { s' with state } :=
  ⟨rfl, h.cache, h.notes, h.inFolder, h.disks, h.apart⟩

theorem note (h : Twins place folder s s') (n : Report.Note) : Twins place folder (s.note n) (s'.note n) :=
  ⟨h.state, h.cache, congrArg (· ++ [n]) h.notes, h.inFolder, h.disks, h.apart⟩

/-! ### The cache -/

theorem entries (h : Twins place folder s s') : s'.cache.entries s'.disk = s.cache.entries s.disk := by
  have stored : s.cache.stored s'.disk = s.cache.stored s.disk :=
    ResultCache.stored_congr (h.disks.alike.readText? h.apart)
  rw [h.cache, ResultCache.entries, ResultCache.entries, stored]

theorem cached? (h : Twins place folder s s') (locale key : String) :
    cached? locale key s' = Resolution.cached? locale key s := by
  unfold Resolution.cached? ResultCache.get?
  rw [h.entries]

theorem load (h : Twins place folder s s') :
    Twins place folder { s with cache := s.cache.load s.disk } { s' with cache := s'.cache.load s'.disk } := by
  refine ⟨h.state, ?_, h.notes, h.inFolder, h.disks, h.apart⟩
  dsimp only
  unfold ResultCache.load
  rw [h.entries, h.cache]

/-- The file of the cache is written on both disks, or on none. -/
theorem save {c : ResultCache} {d e : Disk} (inFolder : c.folder = folder)
    (disks : TwinDisks place folder d e) (same : c.entries e = c.entries d) :
    TwinDisks place folder (c.save d) (c.save e) := by
  unfold ResultCache.save
  rw [inFolder, disks.makeFolders.1, disks.makeFolders.2, same]
  dsimp only
  obtain ⟨cause, left, right⟩ | ⟨d', e', left, right, disks'⟩ :=
    disks.writeBytes c.path (Text.utf8 (ResultCache.document (c.entries d)))
  · rw [Disk.writeText, Disk.writeText, left, right]
    exact disks
  · rw [Disk.writeText, Disk.writeText, left, right]
    exact disks'

/-- The same entry is stored in both sessions. -/
theorem set (h : Twins place folder s s') (key : String) (e : CacheEntry) :
    (s'.cache.set s'.disk key e).1 = (s.cache.set s.disk key e).1 ∧
      (s.cache.set s.disk key e).1.folder = folder ∧
      TwinDisks place folder (s.cache.set s.disk key e).2 (s'.cache.set s'.disk key e).2 := by
  rw [ResultCache.set_eq, ResultCache.set_eq, h.entries, h.cache]
  generalize eq : { s.cache with known := some (Keyed.set key e (s.cache.entries s.disk)) } = changed
  have holds (d' : Disk) : changed.entries d' = Keyed.set key e (s.cache.entries s.disk) := by
    subst eq; rfl
  have inFolder : changed.folder = folder := by
    subst eq; exact h.inFolder
  exact ⟨rfl, inFolder, save inFolder h.disks ((holds _).trans (holds _).symm)⟩

theorem store (h : Twins place folder s s') (sv : Services σ) (rule key text : String) :
    Twins place folder (store sv rule key text s) (Resolution.store sv rule key text s') := by
  obtain ⟨cache, inFolder, disks⟩ := h.set key
    { value := text, model := sv.model, locale := sv.locale, rule, generatedAt := sv.now }
  refine ⟨h.state, cache, h.notes, inFolder, disks, ?_⟩
  change placeOf (Path.join (s.cache.set s.disk key _).1.folder fileName) ≠ place
  rw [inFolder, ← h.inFolder]
  exact h.apart

end Twins

/-! ### One violation -/

theorem queryFor_twins (ignores : sv.Ignores place) (h : Twins place folder s s') (subject : Subject)
    (v : Violation) (f : SourceFile) (params : Deferred.Params) :
    SameTwins place folder (queryFor sv subject v f params s) (queryFor sv subject v f params s') := by
  cases subject with
  | title => exact ⟨rfl, h⟩
  | label => exact ⟨rfl, h⟩
  | image =>
    have image : SameTwins place folder (imageFor sv v f (params.lookup "src") s)
        (imageFor sv v f (params.lookup "src") s') := by
      unfold imageFor
      cases (v.anchor).bind (f.elementAt? ·) with
      | none => exact ⟨rfl, h⟩
      | some e =>
        have read : sv.image s'.disk e (params.lookup "src") s'.state =
            sv.image s.disk e (params.lookup "src") s.state := by
          rw [ignores _ _ h.disks.alike, h.state]
        change SameTwins place folder ((sv.image s.disk e (params.lookup "src") s.state).1,
          { s with state := (sv.image s.disk e (params.lookup "src") s.state).2 })
          ((sv.image s'.disk e (params.lookup "src") s'.state).1,
          { s' with state := (sv.image s'.disk e (params.lookup "src") s'.state).2 })
        rw [read]
        exact ⟨rfl, h.withState _⟩
    obtain ⟨same, twins⟩ := image
    rw [queryFor_image, queryFor_image, same]
    exact ⟨rfl, twins⟩

theorem answer_twins (h : Twins place folder s s') (rule : String) (q : Query) :
    SameTwins place folder (answer sv rule q s) (answer sv rule q s') := by
  have look := h.cached? sv.locale q.key
  cases known : (cached? sv.locale q.key s).or q.known with
  | some text =>
    rw [answer_of_some known, answer_of_some (look ▸ known)]
    exact ⟨rfl, h.load⟩
  | none =>
    rw [answer_of_none known, answer_of_none (look ▸ known)]
    unfold ask
    dsimp only
    rw [h.state]
    rcases sv.write q.request s.state with ⟨f | a, state⟩
    · exact ⟨rfl, h.load.withState state⟩
    · dsimp only
      split
      · exact ⟨rfl, h.load.withState state⟩
      · exact ⟨rfl, (h.load.withState state).store sv rule q.key a.text⟩

theorem resolveFix_twins (ignores : sv.Ignores place) (h : Twins place folder s s') (subject : Subject)
    (v : Violation) (fix : Fix) (params : Deferred.Params) (f : SourceFile) :
    SameTwins place folder (resolveFix sv subject v fix params f s)
      (resolveFix sv subject v fix params f s') := by
  obtain ⟨same, twins⟩ := queryFor_twins ignores h subject v f params
  unfold resolveFix
  rcases asked : queryFor sv subject v f params s with ⟨o, after⟩
  rcases asked' : queryFor sv subject v f params s' with ⟨o', after'⟩
  rw [asked, asked'] at same twins
  dsimp only at same twins
  subst same
  cases o' with
  | error fault => exact ⟨rfl, twins⟩
  | ok q =>
    dsimp only
    obtain ⟨same, twins⟩ : SameTwins place folder (answer sv v.rule q after) (answer sv v.rule q after') :=
      answer_twins twins v.rule q
    rcases answered : answer sv v.rule q after with ⟨o, last⟩
    rcases answered' : answer sv v.rule q after' with ⟨o', last'⟩
    rw [answered, answered'] at same twins
    dsimp only at same twins
    subst same
    rcases o' with (message | fault) | a
    · exact ⟨rfl, twins.note _⟩
    · exact ⟨rfl, twins⟩
    · dsimp only
      split <;> exact ⟨rfl, twins⟩

theorem resolveOne_twins (ignores : sv.Ignores place) (files : List (String × SourceFile))
    (v : Violation) (h : Twins place folder s s') :
    SameTwins place folder (resolveOne sv files v s) (resolveOne sv files v s') := by
  obtain ⟨subject, fix, params, f, due⟩ | ⟨-, kept⟩ := due_or_kept files v
  · obtain ⟨same, twins⟩ := resolveFix_twins ignores h subject v fix params f
    rw [due.resolveOne_eq, due.resolveOne_eq]
    refine ⟨?_, twins⟩
    change Except.map _ _ = Except.map _ _
    rw [same]
  · rw [kept, kept]
    exact ⟨rfl, h⟩

/-! ### All violations -/

theorem resolveEach_twins (ignores : sv.Ignores place) (files : List (String × SourceFile))
    (vs : List Violation) (h : Twins place folder s s') :
    SameTwins place folder (resolveEach sv files vs s) (resolveEach sv files vs s') := by
  induction vs generalizing s s' with
  | nil => exact ⟨rfl, h⟩
  | cons v rest ih =>
    obtain ⟨same, twins⟩ := resolveOne_twins ignores files v h
    rcases step : resolveOne sv files v s with ⟨o, after⟩
    rcases step' : resolveOne sv files v s' with ⟨o', after'⟩
    rw [step, step'] at same twins
    dsimp only at same twins
    subst same
    rcases o' with fault | ⟨w, used⟩
    · rw [(resolveEach_of_error step).1, (resolveEach_of_error step').1]
      exact ⟨rfl, twins⟩
    · obtain ⟨same, twins⟩ := ih twins
      rw [(resolveEach_of_ok step).1, (resolveEach_of_ok step').1]
      refine ⟨?_, twins⟩
      dsimp only
      rw [same]

/-- Texts are resolved in the same way in both sessions. -/
theorem resolveAll_twins (ignores : sv.Ignores place) (files : List (String × SourceFile))
    (vs : List Violation) (h : Twins place folder s s') :
    SameTwins place folder (resolveAll sv files vs s) (resolveAll sv files vs s') := by
  rw [resolveAll_eq, resolveAll_eq]
  refine resolveEach_twins ignores files vs ?_
  unfold begun
  split
  · exact h
  · exact h.note _

end JsxAudit.Resolution
