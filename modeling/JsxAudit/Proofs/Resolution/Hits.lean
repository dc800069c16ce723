import JsxAudit.Proofs.Cache.Hit
import JsxAudit.Proofs.Resolution.Asking
import JsxAudit.Proofs.Resolution.Entries

/-!
Texts that a run takes from the cache.

A turn takes its text from the cache if the run has stored one under the key before, or else if the
document in the file serves one. The text becomes that of the fix, and nothing is asked for. Where
the file can be written, the document that is in it when the turn comes serves the text in either
case: `cache_serves`.
-/

namespace JsxAudit.Resolution

open Audit Cache Data Generation Source Storage

variable {σ : Type} {sv : Services σ} {files : List (String × SourceFile)}
  {s : Session σ} {vs : List Violation} {before later : List (Turn σ)} {t : Turn σ} {q : Query}
  {locale key text : String}

/-- What the turns of a run keep, they keep up to each turn. -/
theorem Trail.upTo {α : Type} {items : String → Query → Record → List α}
    {R : Session σ → List α → Session σ → Prop} (trail : Trail sv items R)
    (split : turns sv files vs s = before ++ t :: later) :
    R s (before.flatMap (·.items sv files items)) t.session := by
  induction vs generalizing s before with
  | nil => simp [turns] at split
  | cons v rest ih =>
    cases before with
    | nil =>
      unfold turns at split
      obtain ⟨rfl, -⟩ := List.cons.inj split
      exact trail.nothing rfl rfl
    | cons first before =>
      rcases step : resolveOne sv files v s with ⟨fault | ⟨w, used⟩, after⟩
      · rw [(resolveEach_of_error step).2] at split
        simp at split
      · rw [(resolveEach_of_ok step).2] at split
        obtain ⟨rfl, behind⟩ := List.cons.inj split
        have one := trail.turn files ⟨v, s⟩
        rw [Turn.after, step] at one
        exact trail.trans one (ih behind)

/-- Before a run has looked anything up, it has the cache that it starts with. -/
theorem begun_cache (sv : Services σ) (vs : List Violation) (s : Session σ) :
    (begun sv vs s).cache = s.cache ∧ (begun sv vs s).disk = s.disk := by
  unfold begun
  split <;> exact ⟨rfl, rfl⟩

/-! ### Entries -/

/-- The document that is in the file of a cache. -/
def documentAt? (s : Session σ) : Option Value :=
  (s.disk.readText? s.cache.path).bind Json.read?

theorem cached?_eq_some_iff : cached? locale key s = some text ↔
    ∃ e, Keyed.get? (s.cache.entries s.disk) key = some e ∧ e.locale = locale ∧ e.value = text ∧
      text ≠ "" := by
  unfold cached? ResultCache.get?
  simp only [Option.map_eq_some_iff, Option.filter_eq_some_iff, Bool.and_eq_true,
    decide_eq_true_eq, bne_iff_ne]
  constructor
  · rintro ⟨e, ⟨found, same, given⟩, rfl⟩
    exact ⟨e, found, same, rfl, given⟩
  · rintro ⟨e, found, same, rfl, given⟩
    exact ⟨e, ⟨found, same, given⟩, rfl⟩

/-- The entries in the file serve what the document in it serves. -/
theorem served_by_file (s : Session σ) :
    (∃ e, Keyed.get? (s.cache.stored s.disk) key = some e ∧ e.locale = locale ∧ e.value = text ∧
      text ≠ "") ↔ ∃ document, documentAt? s = some document ∧ Serves document locale key text := by
  unfold ResultCache.stored documentAt?
  cases read : (s.disk.readText? s.cache.path).bind Json.read? with
  | none => simp [Keyed.get?]
  | some document =>
    obtain ⟨content, -, parsed⟩ := Option.bind_eq_some_iff.mp read
    have nodup : ∀ fields, document = .table fields → (fields.map (·.1)).Nodup := by
      rintro fields rfl
      exact (Json.namedOnce_of_read? parsed).nodup
    rw [served_iff nodup]
    simp

/-- What a turn stores is for the locale of the run, and not empty. -/
theorem of_mem_stored {entry : String × CacheEntry} (mem : entry ∈ t.stored sv files) :
    entry.2.locale = sv.locale ∧ entry.2.value ≠ "" := by
  obtain ⟨_, a, key, -, given, rfl⟩ := Turn.answer_of_mem_stored mem
  exact ⟨rfl, given⟩

/-! ### One turn -/

/-- A text from the cache becomes that of the fix. -/
theorem resolveOne_of_cached (asked : t.query? sv files = some q)
    (hit : cached? sv.locale q.key t.session = some text) :
    t.sent sv files = [] ∧ ∃ subject fix params f, Due files t.violation subject fix params f ∧
      (resolveOne sv files t.violation t.session).1 = .ok ({ t.violation with
        fix := some (fix.withText (finished subject params text)) }, {}) := by
  obtain ⟨outcome, sent⟩ := Turn.sent_of_query? asked
  obtain ⟨e, -, -, -, given⟩ := cached?_eq_some_iff.mp hit
  refine ⟨by rw [sent, hit]; rfl, ?_⟩
  obtain ⟨subject, fix, params, f, due, looked⟩ := Turn.query?_eq_some_iff.mp asked
  refine ⟨subject, fix, params, f, due, ?_⟩
  have look := cached?_queryFor sv subject t.violation f params t.session sv.locale q.key
  rcases query : queryFor sv subject t.violation f params t.session with ⟨o, after⟩
  rw [query] at looked look
  obtain rfl : o = .ok q := looked
  rw [due.resolveOne_eq, resolveFix, query]
  have known : (cached? sv.locale q.key after).or q.known = some text := by
    rw [look, hit]
    rfl
  dsimp only
  rw [answer_of_some known]
  dsimp only
  rw [if_neg given]
  rfl

/-! ### Runs -/

/-- A turn of a run that opens the cache takes a text from it exactly if an earlier turn has stored
it last under the key, or if none has stored anything there and the document that the run has found
serves it. The text becomes that of the fix. If the file can be written, the document in it at that
time serves just these texts. -/
theorem cache_serves (fresh : s.cache.known = none)
    (split : turns sv files vs (begun sv vs s) = before ++ t :: later)
    (asked : t.query? sv files = some q) (text : String) :
    let new := before.flatMap (·.stored sv files)
    (cached? sv.locale q.key t.session = some text ↔
      (∃ e, Keyed.get? new.reverse q.key = some e ∧ e.value = text) ∨
        Keyed.get? new.reverse q.key = none ∧
          ∃ document, documentAt? s = some document ∧ Serves document sv.locale q.key text) ∧
    (cached? sv.locale q.key t.session = some text →
      t.sent sv files = [] ∧ ∃ subject fix params f, Due files t.violation subject fix params f ∧
        (resolveOne sv files t.violation t.session).1 = .ok ({ t.violation with
          fix := some (fix.withText (finished subject params text)) }, {})) ∧
    (s.cache.CanWrite s.disk → (cached? sv.locale q.key t.session = some text ↔
      ∃ document, documentAt? t.session = some document ∧
        Serves document sv.locale q.key text)) := by
  intro new
  obtain ⟨cache, disk⟩ := begun_cache sv vs s
  have stores : Stores (begun sv vs s) new t.session := (Stores.trail sv).upTo split
  have fills := (Fills.trail sv).upTo split
  refine ⟨?_, resolveOne_of_cached asked, fun canWrite => ?_⟩
  · rw [cached?_eq_some_iff, stores, Keyed.get?_update, cache, disk,
      ResultCache.entries_of_fresh fresh, ← served_by_file]
    cases last : Keyed.get? new.reverse q.key with
    | none => simp
    | some e =>
      have mem : (q.key, e) ∈ new.reverse := Keyed.mem_of_lookup last
      obtain ⟨turn, -, stored⟩ := List.mem_flatMap.mp (List.mem_reverse.mp mem)
      obtain ⟨same, given⟩ := of_mem_stored stored
      simp only [Option.some_or, Option.some.injEq, exists_eq_left', reduceCtorEq, false_and,
        or_false]
      exact ⟨fun h => h.2.1, fun h => ⟨same, h, h ▸ given⟩⟩
  · have opened : (begun sv vs s).cache.InStep (begun sv vs s).disk := by
      rw [cache, disk]
      exact ResultCache.inStep_of_fresh fresh canWrite
    rw [cached?_eq_some_iff, ← (fills.inStep opened).stored, served_by_file]

/-- A cache whose file has an entry without a value under the key of the label of a button. -/
def withoutValue : Session Nat where
  state := 0
  disk := ((Disk.mk [] Disk.inOrder_nil []).put "/cache" .folder).put "/cache/cache.json"
    (.file (Text.utf8
      "\x7b\"907da41489b93e9c\": \x7b\"value\": null, \"locale\": \"en\"\x7d\x7d"))
  cache := { folder := "/cache" }

/-- The button is labelled with what the missing value is shown as, and nothing is asked for. -/
theorem cache_serves_null :
    ∃ f ∈ SourceFile.parse "/p/a.tsx" "<button/>", ∃ t q document,
      turns refusingOnce [(f.path, f)] (Rule.buttonLabel.scan {} f)
        (begun refusingOnce (Rule.buttonLabel.scan {} f) withoutValue) = [t] ∧
      t.query? refusingOnce [(f.path, f)] = some q ∧
      documentAt? withoutValue = some document ∧ Serves document "en" q.key "None" ∧
      t.sent refusingOnce [(f.path, f)] = [] ∧
      (resolveOne refusingOnce [(f.path, f)] t.violation t.session).1.toOption.map
        (·.1.fix.map (·.value)) = some (some (.literal "None")) := by
  have computed : ∃ f ∈ SourceFile.parse "/p/a.tsx" "<button/>",
      let ts := turns refusingOnce [(f.path, f)] (Rule.buttonLabel.scan {} f)
        (begun refusingOnce (Rule.buttonLabel.scan {} f) withoutValue)
      ts.map (fun t => (t.query? refusingOnce [(f.path, f)]).bind
          fun q => cached? "en" q.key t.session) = [some "None"] ∧
        (ts.flatMap fun t => ((resolveOne refusingOnce [(f.path, f)] t.violation
          t.session).1.toOption.map (·.1.fix.map (·.value))).toList) =
          [some (.literal "None")] := by
    decide +kernel
  obtain ⟨f, parsed, hit, fixed⟩ := computed
  obtain ⟨t, one, hit⟩ := List.map_eq_singleton_iff.mp hit
  obtain ⟨q, asked, hit⟩ := Option.bind_eq_some_iff.mp hit
  rw [one] at fixed
  obtain ⟨serves, taken, -⟩ := cache_serves (s := withoutValue) (t := t) rfl
    (show _ = [] ++ t :: [] from one) asked "None"
  obtain ⟨sent, -⟩ := taken hit
  obtain ⟨e, stored, -⟩ | ⟨-, document, read, served⟩ := serves.mp hit
  · cases stored
  · refine ⟨f, parsed, t, q, document, one, asked, read, served, sent, ?_⟩
    simpa using fixed

end JsxAudit.Resolution
