import JsxAudit.Proofs.Cache.Store
import JsxAudit.Proofs.Label.Wording
import JsxAudit.Proofs.Resolution.Turns

/-!
No text is asked for twice.

`Fills` says what a part of a run does to the texts that can be had from the cache: those under some
keys are added, each of which was missing before, and nothing is lost. It holds of one query, of one
turn, of a run, and of the step from one run to the next over the same file, and two parts that
follow one another fill what both fill. So the keys under which a sequence of runs is given texts
are distinct: `requests_over_one_cache`.
-/

namespace JsxAudit.Resolution

open Audit Cache Data Generation Source Storage

variable {σ : Type} {sv : Services σ} {files : List (String × SourceFile)} {s s' s'' : Session σ}
  {t : Turn σ} {q : Query} {v : Violation} {locale key text : String}

/-! ### What is known without asking -/

/-- The icon that a violation comes with. -/
def iconOf? (v : Violation) : Option String :=
  (pending? v).bind fun (_, _, params) => params.lookup "icon"

/-- Nothing is known: the cache has no text under the key in the locale of the run, and there is
no ready label for the icon. -/
structure Turn.Unknown (locale : String) (t : Turn σ) (q : Query) : Prop where
  uncached : ∀ e, t.session.cache.get? t.session.disk q.key = some e → e.locale = locale →
    e.value = ""
  unlabeled : usesIconLabels t.violation.rule →
    (iconOf? t.violation).bind (Label.curatedLabel? · locale) = none

theorem cached?_eq_none_iff : cached? locale key s = none ↔
    ∀ e, s.cache.get? s.disk key = some e → e.locale = locale → e.value = "" := by
  unfold cached?
  cases s.cache.get? s.disk key <;> simp

theorem cached?_store (text_ne : text ≠ "") (rule key key' : String) :
    cached? sv.locale key' (store sv rule key text s) =
      if key' = key then some text else cached? sv.locale key' s := by
  unfold cached? store
  dsimp only
  rw [ResultCache.get?_set]
  split
  · simp [text_ne]
  · rfl

/-- Only the query of a label can be known without asking, and only with the icon of a button or a
link. -/
theorem known_of_queryFor {subject : Subject} {f : SourceFile} {params : Deferred.Params}
    (named : subjectOf? v.rule = some subject) (h : (queryFor sv subject v f params s).1 = .ok q) :
    q.known = if usesIconLabels v.rule then
        (((params.lookup "icon").filter (· != "")).bind
          (Label.curatedLabel? · sv.locale)).filter (· != "")
      else none := by
  have label (uses : usesIconLabels v.rule = true) : subject = .label := by
    have rule : v.rule = "button-label" ∨ v.rule = "link-label" := by
      simpa [usesIconLabels] using uses
    rcases rule with eq | eq <;> simp [subjectOf?, eq] at named <;> exact named.symm
  cases subject with
  | label =>
    cases h
    rfl
  | title =>
    cases h
    rw [if_neg fun uses => nomatch label uses]
    rfl
  | image =>
    rw [if_neg fun uses => nomatch label uses]
    obtain rfl | ⟨image, rfl⟩ := query_of_queryFor_image h
    · rfl
    · rfl

/-- A text is known without asking exactly if the icon of a button or a link has a ready label. -/
theorem known_eq_none_iff (h : t.query? sv files = some q) : q.known = none ↔
    (usesIconLabels t.violation.rule →
      (iconOf? t.violation).bind (Label.curatedLabel? · sv.locale) = none) := by
  obtain ⟨subject, fix, params, f, due, asked⟩ := Turn.query?_eq_some_iff.mp h
  have icon : iconOf? t.violation = params.lookup "icon" := by
    unfold iconOf?
    rw [due.pending]
    rfl
  -- ready labels and their icons are never empty, so nothing is lost where empty ones are left out
  have filled : (((params.lookup "icon").filter (· != "")).bind
      (Label.curatedLabel? · sv.locale)).filter (· != "") =
      (params.lookup "icon").bind (Label.curatedLabel? · sv.locale) := by
    cases params.lookup "icon" with
    | none => rfl
    | some name =>
      cases ready : Label.curatedLabel? name sv.locale with
      | none => cases hn : name != "" <;> simp [Option.filter, hn, ready]
      | some label =>
        have ⟨named, filled⟩ := Label.ne_empty_of_curatedLabel? ready
        simp [Option.filter, named, filled, ready]
  rw [known_of_queryFor (pending?_eq_some_iff.mp due.pending).1 asked, icon, filled]
  split <;> simp [*]

theorem unknown_iff (h : t.query? sv files = some q) :
    t.Unknown sv.locale q ↔ (cached? sv.locale q.key t.session).or q.known = none := by
  rw [Option.or_eq_none_iff, known_eq_none_iff h, cached?_eq_none_iff]
  exact ⟨fun unknown => ⟨unknown.uncached, unknown.unlabeled⟩, fun ⟨uncached, unlabeled⟩ =>
    ⟨uncached, unlabeled⟩⟩

/-! ### What is added to the cache -/

/-- From one session to a later one, texts under some keys have been added, all of them missing
before. -/
structure Fills (locale : String) (s : Session σ) (keys : List String) (s' : Session σ) :
    Prop where
  folder : s'.cache.folder = s.cache.folder
  inStep : s.cache.InStep s.disk → s'.cache.InStep s'.disk
  nodup : keys.Nodup
  missing : ∀ key ∈ keys, cached? locale key s = none
  present : ∀ key, (cached? locale key s').isSome ↔
    (cached? locale key s).isSome ∨ key ∈ keys

namespace Fills

variable {keys keys' : List String}

theorem nothing (cache : s'.cache = s.cache) (disk : s'.disk = s.disk) : Fills locale s [] s' where
  folder := by rw [cache]
  inStep := by rw [cache, disk]; exact id
  nodup := List.nodup_nil
  missing := by simp
  present := by simp [cached?, cache, disk]

theorem load (locale : String) (s : Session σ) :
    Fills locale s [] { s with cache := s.cache.load s.disk } where
  folder := rfl
  inStep := ResultCache.InStep.load
  nodup := List.nodup_nil
  missing := by simp
  present key := by
    have same : cached? locale key { s with cache := s.cache.load s.disk } =
        cached? locale key s := rfl
    simp [same]

theorem store (text_ne : text ≠ "") (rule key : String)
    (missing : cached? sv.locale key s = none) :
    Fills sv.locale s [key] (store sv rule key text s) where
  folder := rfl
  inStep h := h.set _ _
  nodup := List.nodup_singleton _
  missing := by simpa using missing
  present key' := by
    rw [cached?_store text_ne]
    split <;> simp [*]

theorem trans (first : Fills locale s keys s') (second : Fills locale s' keys' s'') :
    Fills locale s (keys ++ keys') s'' where
  folder := second.folder.trans first.folder
  inStep := second.inStep ∘ first.inStep
  nodup := by
    refine List.nodup_append'.mpr ⟨first.nodup, second.nodup, fun key mem mem' => ?_⟩
    have there : (cached? locale key s').isSome := (first.present key).mpr (.inr mem)
    rw [second.missing key mem'] at there
    cases there
  missing key mem := by
    rcases List.mem_append.mp mem with mem | mem
    · exact first.missing key mem
    · have absent := second.missing key mem
      by_contra known
      have there := (first.present key).mpr (.inl (Option.isSome_iff_ne_none.mpr known))
      rw [absent] at there
      cases there
  present key := by
    rw [second.present, first.present, List.mem_append, or_assoc]

end Fills

/-! ### What a run adds -/

/-- The request has been answered with a text that is not empty. -/
def isText : Except Failure TextAnswer → Bool
  | .ok a => a.text != ""
  | .error _ => false

/-- The key, if the request that a record has of it has been answered with a text. -/
def filledKeys (key : String) (record : Record) : List String :=
  (record.filter fun (_, outcome) => isText outcome).map fun _ => key

/-- The key under which a turn has been given a text, if it has. -/
def Turn.answered (sv : Services σ) (files : List (String × SourceFile)) (t : Turn σ) :
    List String :=
  match t.query? sv files with
  | some q => filledKeys q.key (t.sent sv files)
  | none => []

namespace Fills

theorem ask (rule : String) (missing : cached? sv.locale q.key s = none) :
    Fills sv.locale s (filledKeys q.key [(q.request, (sv.write q.request s.state).1)])
      (ask sv rule q s).2 := by
  unfold Resolution.ask
  rcases sv.write q.request s.state with ⟨f | a, state⟩
  · exact nothing rfl rfl
  · have kept : Fills sv.locale s [] { s with state } := nothing rfl rfl
    by_cases empty : a.text = ""
    · simpa [empty, filledKeys, isText] using kept
    · have stored := kept.trans (store (s := { s with state }) empty rule q.key missing)
      simpa [empty, filledKeys, isText] using stored

theorem answer (rule : String) (q : Query) (s : Session σ) :
    Fills sv.locale s (filledKeys q.key (outgoing sv q s)) (answer sv rule q s).2 := by
  unfold outgoing
  cases h : (cached? sv.locale q.key s).or q.known with
  | some text =>
    rw [answer_of_some h]
    exact load _ _
  | none =>
    have missing := (Option.or_eq_none_iff.mp h).1
    rw [answer_of_none h]
    exact (load _ _).trans (ask (s := { s with cache := s.cache.load s.disk }) rule missing)

/-- What a query adds is the text that it has been answered. -/
theorem trail (sv : Services σ) :
    Trail sv (fun _ q record => filledKeys q.key record) (Fills sv.locale) where
  nothing := nothing
  trans := trans
  answer := answer

end Fills

/-! ### Runs over one cache -/

/-- One run: its services, the files, the violations, and the session in which it starts. -/
structure Round (σ : Type) where
  services : Services σ
  files : List (String × SourceFile)
  violations : List Violation
  start : Session σ

namespace Round

variable (r : Round σ)

def result : Except Fault (List Violation × TokenUsage) × Session σ :=
  resolveAll r.services r.files r.violations r.start

/-- The requests of the run, as services with a record have it. -/
def record : Record :=
  (resolveAll r.services.recorded r.files r.violations (r.start.recording [])).2.state.2

def turns : List (Turn σ) :=
  Resolution.turns r.services r.files r.violations (begun r.services r.violations r.start)

/-- The keys under which the run has been answered with texts. -/
def answered : List String :=
  r.turns.flatMap (·.answered r.services r.files)

end Round

/-- The later session finds the text of the cache file as the earlier one has left it, with the same
cache or with one that has just been opened in the same folder. -/
structure Reopened (earlier later : Session σ) : Prop where
  folder : later.cache.folder = earlier.cache.folder
  cache : later.cache.known = none ∨ later.cache = earlier.cache
  file : later.disk.readText? earlier.cache.path = earlier.disk.readText? earlier.cache.path

/-- A sequence of runs with one locale over one cache file, which each of them can write. -/
structure OverOneCache (locale : String) (rounds : List (Round σ)) : Prop where
  locale : ∀ r ∈ rounds, r.services.locale = locale
  canWrite : ∀ r ∈ rounds, r.start.cache.CanWrite r.start.disk
  opened : ∀ r ∈ rounds.head?, r.start.cache.known = none
  reopened : rounds.IsChain fun r next => Reopened r.result.2 next.start

/-- A run adds the texts that its turns have been answered, and no other. -/
theorem Fills.round (r : Round σ) :
    Fills r.services.locale r.start r.answered r.result.2 :=
  (trail r.services).all r.files r.violations r.start

theorem Reopened.file' (h : Reopened s s') :
    s'.disk.readText? s'.cache.path = s.disk.readText? s.cache.path := by
  have same : s'.cache.path = s.cache.path := by
    rw [ResultCache.path, ResultCache.path, h.folder]
  rw [same, h.file]

/-- A cache that is opened again has the texts that it had. -/
theorem Reopened.fills (h : Reopened s s') (step : s.cache.InStep s.disk)
    (canWrite : s'.cache.CanWrite s'.disk) : Fills locale s [] s' where
  folder := h.folder
  inStep _ := step.reopened h.file' h.cache canWrite
  nodup := List.nodup_nil
  missing := by simp
  present key := by
    have same : cached? locale key s' = cached? locale key s := by
      unfold cached? ResultCache.get?
      rw [step.entries_eq h.file' h.cache]
    simp [same]

/-- A sequence of runs adds the texts that the runs have been answered. -/
theorem Fills.rounds {r : Round σ} {rest : List (Round σ)}
    (same : ∀ r' ∈ r :: rest, r'.services.locale = locale)
    (canWrite : ∀ r' ∈ r :: rest, r'.start.cache.CanWrite r'.start.disk)
    (chain : (r :: rest).IsChain fun r next => Reopened r.result.2 next.start)
    (step : r.start.cache.InStep r.start.disk) :
    ∃ last, Fills locale r.start ((r :: rest).flatMap Round.answered) last := by
  -- the induction is on the later runs; that cache and file are in step carries it
  induction rest generalizing r with
  | nil =>
    have one := Fills.round r
    rw [same r List.mem_cons_self] at one
    exact ⟨r.result.2, by simpa using one⟩
  | cons next rest ih =>
    have one := Fills.round r
    rw [same r List.mem_cons_self] at one
    obtain ⟨reopened, chain⟩ := List.isChain_cons_cons.mp chain
    have opened : Fills locale r.result.2 [] next.start :=
      reopened.fills (one.inStep step) (canWrite next (by simp))
    obtain ⟨last, later⟩ := ih (fun r' mem => same r' (List.mem_cons_of_mem _ mem))
      (fun r' mem => canWrite r' (List.mem_cons_of_mem _ mem)) chain
      (opened.inStep (one.inStep step))
    exact ⟨last, by simpa using (one.trans opened).trans later⟩

theorem OverOneCache.nodup_answered {rounds : List (Round σ)} (h : OverOneCache locale rounds) :
    (rounds.flatMap Round.answered).Nodup := by
  cases rounds with
  | nil => exact List.nodup_nil
  | cons r rest =>
    obtain ⟨last, fills⟩ := Fills.rounds h.locale h.canWrite h.reopened
      (ResultCache.inStep_of_fresh (h.opened r rfl) (h.canWrite r List.mem_cons_self))
    exact fills.nodup

theorem Round.record_eq (r : Round σ) :
    r.record = r.turns.flatMap (·.sent r.services r.files) := by
  unfold Round.record
  rw [resolveAll_recorded]
  exact List.nil_append _

/-- In every run of a sequence over one cache, each violation has its turn, and each that needs a text
and whose file is known has its query, unless a fault ends the run. The request of the query goes out
exactly if nothing is known at that moment, and no other request does. So no key is answered with a
text twice in the whole sequence. -/
theorem requests_over_one_cache {rounds : List (Round σ)} (h : OverOneCache locale rounds) :
    (∀ r ∈ rounds,
      r.record = r.turns.flatMap (·.sent r.services r.files) ∧
      (∃ unreached, r.violations = r.turns.map (·.violation) ++ unreached ∧
        (r.result.1.isOk → unreached = [])) ∧
      ∀ t ∈ r.turns,
        (t.query? r.services r.files = none → t.sent r.services r.files = [] ∧
          (r.result.1.isOk → needsResolution t.violation = false ∨
            r.files.lookup t.violation.filePath = none)) ∧
        ∀ q, t.query? r.services r.files = some q →
          (t.Unknown locale q → (t.sent r.services r.files).map (·.1) = [q.request]) ∧
          (¬ t.Unknown locale q → t.sent r.services r.files = [])) ∧
    (rounds.flatMap Round.answered).Nodup := by
  refine ⟨fun r mem => ⟨r.record_eq, turns_violations _ _ _ _, fun t turn =>
    ⟨fun none => ⟨Turn.sent_of_query?_none none, fun ok => ?_⟩, fun q asked => ?_⟩⟩,
    h.nodup_answered⟩
  · exact (Turn.not_due_of_query?_none none (isOk_of_mem_turns turn ok)).imp_left
      needsResolution_of_none
  obtain ⟨outcome, sent⟩ := Turn.sent_of_query? asked
  rw [sent, ← h.locale r mem, unknown_iff asked]
  constructor
  · intro unknown
    rw [unknown]
    rfl
  · intro known
    rw [if_pos (Option.isSome_iff_ne_none.mpr known)]

/-- A button that shows nothing but an icon, for which there is no ready label. -/
def basketButton : Violation where
  rule := "button-label"
  filePath := "/p/a.tsx"
  line := 1
  column := 1
  element := "<button><BasketIcon/></button>"
  message := "Button has no accessible name"
  fix := some ⟨.insertAttr, .deferred "icon-label" [("icon", "BasketIcon")], some "aria-label"⟩
  anchor := some 0

/-- A run over the button, with a service that always writes the same text. -/
def basketRound (disk : Disk) : Round Unit where
  services :=
    { model := "m", write := fun _ _ => (.ok { text := "Show basket" }, ())
      image := fun _ _ _ _ => (.ok none, ()), locale := "en", now := "" }
  files := (SourceFile.parse "/p/a.tsx" "<button><BasketIcon/></button>").toList.map fun f =>
    (f.path, f)
  violations := [basketButton]
  start := { state := (), disk, cache := { folder := "/cache" } }

/-- A second run over the button opens the cache that the first one has left. -/
theorem overOneCache_basket {d e : Disk} (canWrite : (basketRound d).start.cache.CanWrite d)
    (left : e = (basketRound d).result.2.disk) :
    OverOneCache "en" [basketRound d, basketRound e] := by
  have fills : Fills "en" (basketRound d).start (basketRound d).answered (basketRound d).result.2 :=
    Fills.round (basketRound d)
  have folder : (basketRound e).start.cache.folder = (basketRound d).result.2.cache.folder :=
    fills.folder.symm
  have step := fills.inStep (ResultCache.inStep_of_fresh rfl canWrite)
  rw [← left] at step
  have reopened : Reopened (basketRound d).result.2 (basketRound e).start :=
    ⟨folder, .inl rfl, by rw [← left]; rfl⟩
  have canWrite' : (basketRound e).start.cache.CanWrite (basketRound e).start.disk :=
    step.canWrite.congr folder
  exact
    { locale := by simp [basketRound]
      canWrite := by simpa using ⟨canWrite, canWrite'⟩
      opened := by simp [basketRound]
      reopened := .cons_cons reopened (.singleton _) }

/-- Of two runs over the button, the first is given a text, and the second finds it. -/
theorem requests_over_one_cache_basket :
    OverOneCache "en" [basketRound {}, basketRound (basketRound {}).result.2.disk] ∧
      (basketRound {}).answered.length = 1 ∧
      ((basketRound {}).answered ++
        (basketRound (basketRound {}).result.2.disk).answered).Nodup := by
  have computed : (∃ made ∈ (Disk.makeFolders {} "/cache").toOption,
      made.Writable (Path.join "/cache" fileName) "/cache/cache.json") ∧
      (basketRound {}).answered.length = 1 := by
    decide +kernel
  obtain ⟨⟨made, folders, writable⟩, one⟩ := computed
  have shared := overOneCache_basket ⟨made, _, eq_ok_of_toOption folders, writable⟩ rfl
  have distinct := (requests_over_one_cache shared).2
  rw [List.flatMap_cons, List.flatMap_singleton] at distinct
  exact ⟨shared, one, distinct⟩

end JsxAudit.Resolution
