import JsxAudit.Proofs.Data.Keyed
import JsxAudit.Proofs.Resolution.Outcome
import JsxAudit.Proofs.Resolution.Requests

/-!
What a run leaves in the cache.

A turn stores the text that its request has been answered with, as it has been written, unless it is
empty. `Stores` says that from one session to a later one the cache has been updated with some
entries and with nothing else; it holds of a query, of a turn and of a run. So a run updates the
cache with the answers to its requests in their order: `resolveAll_entries`. Ready labels, offline
texts and texts with a loop variable behind them are no answers, and are not stored.
-/

namespace JsxAudit.Resolution

open Audit Cache Data Generation Source Storage

variable {σ : Type} {sv : Services σ} {files : List (String × SourceFile)}
  {s s' s'' : Session σ} {v : Violation} {q : Query}

/-! ### Entries of answers -/

/-- The text that a request has been answered with, unless it is empty. -/
def textOf? : Except Failure TextAnswer → Option String
  | .ok a => if a.text = "" then none else some a.text
  | .error _ => none

/-- The entry of a text that has been written for a rule. -/
def entryOf (sv : Services σ) (rule text : String) : CacheEntry :=
  { value := text, model := sv.model, locale := sv.locale, rule, generatedAt := sv.now }

/-- The entries that the answers to some requests leave under a key. -/
def entriesOf (sv : Services σ) (rule key : String) (record : Record) :
    List (String × CacheEntry) :=
  record.filterMap fun request => (textOf? request.2).map fun text => (key, entryOf sv rule text)

/-- What a turn stores. -/
def Turn.stored (sv : Services σ) (files : List (String × SourceFile)) (t : Turn σ) :
    List (String × CacheEntry) :=
  match t.query? sv files with
  | some q => entriesOf sv t.violation.rule q.key (t.sent sv files)
  | none => []

/-- The texts that a turn stores are those that its requests have been answered with. -/
theorem Turn.texts_stored (t : Turn σ) : (t.stored sv files).map (·.2.value) =
    (t.sent sv files).filterMap fun request => textOf? request.2 := by
  unfold Turn.stored
  cases asked : t.query? sv files with
  | none =>
    rw [Turn.sent_of_query?_none asked]
    rfl
  | some q =>
    unfold entriesOf
    rw [List.map_filterMap]
    refine List.filterMap_congr fun request _ => ?_
    cases textOf? request.2 <;> rfl

/-- What a turn stores is what one of its requests has been answered with. -/
theorem Turn.answer_of_mem_stored {t : Turn σ} {entry : String × CacheEntry}
    (mem : entry ∈ t.stored sv files) :
    ∃ request a key, (request, .ok a) ∈ t.sent sv files ∧ a.text ≠ "" ∧
      entry = (key, entryOf sv t.violation.rule a.text) := by
  unfold Turn.stored at mem
  cases asked : t.query? sv files with
  | none =>
    rw [asked] at mem
    cases mem
  | some q =>
    rw [asked] at mem
    obtain ⟨⟨request, outcome⟩, sent, made⟩ := List.mem_filterMap.mp mem
    obtain ⟨text, written, rfl⟩ := Option.map_eq_some_iff.mp made
    cases outcome with
    | error fault => cases written
    | ok a =>
      rw [textOf?] at written
      split at written
      · cases written
      · rename_i given
        cases written
        exact ⟨request, a, q.key, sent, given, rfl⟩

/-! ### Updates of the cache -/

/-- From one session to a later one, the cache has been updated with some entries, and with nothing
else. -/
def Stores (s : Session σ) (new : List (String × CacheEntry)) (s' : Session σ) : Prop :=
  s'.cache.entries s'.disk = Keyed.update (s.cache.entries s.disk) new

namespace Stores

variable {new later : List (String × CacheEntry)}

theorem nothing (cache : s'.cache = s.cache) (disk : s'.disk = s.disk) : Stores s [] s' := by
  unfold Stores
  rw [cache, disk, Keyed.update_nil]

theorem load (s : Session σ) : Stores s [] { s with cache := s.cache.load s.disk } := rfl

theorem store (sv : Services σ) (s : Session σ) (rule key text : String) :
    Stores s [(key, entryOf sv rule text)] (store sv rule key text s) := rfl

theorem trans (first : Stores s new s') (second : Stores s' later s'') :
    Stores s (new ++ later) s'' := by
  unfold Stores at *
  rw [second, first, Keyed.update_update]

/-- An answer is stored if it is a text that is not empty, and nothing else is. -/
theorem ask (rule : String) (q : Query) (s : Session σ) :
    Stores s (entriesOf sv rule q.key [(q.request, (sv.write q.request s.state).1)])
      (ask sv rule q s).2 := by
  unfold Resolution.ask
  rcases sv.write q.request s.state with ⟨f | a, state⟩
  · exact nothing rfl rfl
  · have kept : Stores s [] { s with state } := nothing rfl rfl
    by_cases empty : a.text = ""
    · simpa [empty, entriesOf, textOf?] using kept
    · have stored := kept.trans (store sv { s with state } rule q.key a.text)
      simpa [empty, entriesOf, textOf?] using stored

theorem answer (rule : String) (q : Query) (s : Session σ) :
    Stores s (entriesOf sv rule q.key (outgoing sv q s)) (answer sv rule q s).2 := by
  unfold outgoing
  cases h : (cached? sv.locale q.key s).or q.known with
  | some text =>
    rw [answer_of_some h]
    exact load s
  | none =>
    rw [answer_of_none h]
    exact (load s).trans (ask rule q { s with cache := s.cache.load s.disk })

/-- What a query stores is what its request has been answered with. -/
theorem trail (sv : Services σ) :
    Trail sv (fun rule q record => entriesOf sv rule q.key record) Stores where
  nothing := nothing
  trans := trans
  answer := answer

end Stores

/-! ### Whole runs -/

/-- A run updates the cache with one entry for each request that has been answered with a text that
is not empty, in the order of the requests: under the key of its query the text as it has been
written, the model, the locale of the run and the rule. Nothing else is stored, and no entry is
removed. A file that has been in step with the cache stays so. -/
theorem resolveAll_entries (sv : Services σ) (files : List (String × SourceFile))
    (vs : List Violation) (s : Session σ) :
    let taken := turns sv files vs (begun sv vs s)
    let new := taken.flatMap (·.stored sv files)
    let after := (resolveAll sv files vs s).2
    resolveAll sv.recorded files vs (s.recording []) = ((resolveAll sv files vs s).1,
        after.recording (taken.flatMap (·.sent sv files))) ∧
      new.map (·.2.value) =
        (taken.flatMap (·.sent sv files)).filterMap (fun request => textOf? request.2) ∧
      after.cache.entries after.disk = Keyed.update (s.cache.entries s.disk) new ∧
      (∀ key, after.cache.get? after.disk key =
        (Keyed.get? new.reverse key).or (s.cache.get? s.disk key)) ∧
      (s.cache.entries s.disk).map (·.1) <+: (after.cache.entries after.disk).map (·.1) ∧
      (s.cache.InStep s.disk → after.cache.stored after.disk = after.cache.entries after.disk) := by
  intro taken new after
  have stores : Stores s new after := (Stores.trail sv).all files vs s
  refine ⟨resolveAll_recorded sv files vs s [], ?_, stores, fun key => ?_, ?_, fun inStep => ?_⟩
  · rw [List.map_flatMap, List.filterMap_flatMap]
    exact List.flatMap_congr fun t _ => t.texts_stored
  · rw [ResultCache.get?, stores, Keyed.get?_update]
    rfl
  · rw [stores]
    exact Keyed.names_prefix_update _ _
  · exact ((Fills.round ⟨sv, files, vs, s⟩).inStep inStep).stored

/-- Of a button whose request is refused and a field whose request is answered, only the field has
an entry, although the button has been given an offline label. -/
theorem resolveAll_entries_refused :
    ∃ f ∈ SourceFile.parse "/p/a.tsx" "<><button><BasketIcon/></button><input/></>",
      let vs := Rule.buttonLabel.scan {} f ++ Rule.inputLabel.scan {} f
      let s : Session Nat := { state := 0, disk := {}, cache := { folder := "/cache" } }
      let after := (resolveAll refusingOnce [(f.path, f)] vs s).2
      (resolveAll refusingOnce [(f.path, f)] vs s).1.toOption.map
          (·.1.map fun v => v.fix.map (·.value)) =
        some [some (.literal "Basket"), some (.literal "Name")] ∧
      s.cache.InStep s.disk ∧
      after.cache.stored after.disk = after.cache.entries after.disk ∧
      (after.cache.entries after.disk).map (fun (_, e) => (e.value, e.rule)) =
        [("Name", "input-label")] := by
  have computed : ∃ f ∈ SourceFile.parse "/p/a.tsx" "<><button><BasketIcon/></button><input/></>",
      let vs := Rule.buttonLabel.scan {} f ++ Rule.inputLabel.scan {} f
      let s : Session Nat := { state := 0, disk := {}, cache := { folder := "/cache" } }
      (resolveAll refusingOnce [(f.path, f)] vs s).1.toOption.map
          (·.1.map fun v => v.fix.map (·.value)) =
        some [some (.literal "Basket"), some (.literal "Name")] ∧
      ((turns refusingOnce [(f.path, f)] vs (begun refusingOnce vs s)).flatMap
          (·.stored refusingOnce [(f.path, f)])).map (fun (_, e) => (e.value, e.rule)) =
        [("Name", "input-label")] ∧
      ∃ made ∈ (Disk.makeFolders {} "/cache").toOption,
        made.Writable (Path.join "/cache" fileName) "/cache/cache.json" ∧
        Disk.readText? {} (Path.join "/cache" fileName) = none := by
    decide +kernel
  obtain ⟨f, parsed, fixed, one, made, folders, writable, unread⟩ := computed
  refine ⟨f, parsed, ?_⟩
  intro vs s after
  have inStep : s.cache.InStep s.disk :=
    ResultCache.inStep_of_fresh rfl ⟨made, _, eq_ok_of_toOption folders, writable⟩
  obtain ⟨-, -, entries, -, -, kept⟩ := resolveAll_entries refusingOnce [(f.path, f)] vs s
  refine ⟨fixed, inStep, kept inStep, ?_⟩
  have empty : s.cache.entries s.disk = [] :=
    (ResultCache.entries_of_fresh rfl s.disk).trans (ResultCache.stored_of_unread unread)
  obtain ⟨⟨key, e⟩, eq, same⟩ := List.map_eq_singleton_iff.mp one
  rw [entries, eq, empty, ← same]
  rfl

end JsxAudit.Resolution
