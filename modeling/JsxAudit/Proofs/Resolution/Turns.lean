import JsxAudit.Resolution.Run

/-!
The turns of a run, and the requests that go out in them.

`Services.recorded` are the same services with a record of what they are asked for. A run with them
is the run without them and a record beside it: `resolveAll_recorded` says so, and that the record
of a run is made of the records of its turns. `sent_of_query?` opens the record of one turn.

A `Trail` is a relation between sessions that every query keeps, along with items that tell what the
queries have done. A run keeps it, with the items of its turns one after the other: `Trail.all`.
-/

namespace JsxAudit.Resolution

open Audit Cache Data Generation Source Storage

/-! ### Records -/

/-- Requests that have gone out, each with what became of it. -/
abbrev Record := List (TextRequest × Except Failure TextAnswer)

variable {σ : Type} {sv : Services σ} {files : List (String × SourceFile)} {s : Session σ}
  {record : Record}

/-- The services, with a record of the requests for texts. -/
def Services.recorded (sv : Services σ) : Services (σ × Record) :=
  { model := sv.model
    write := fun request (state, record) =>
      let (outcome, state) := sv.write request state
      (outcome, state, record ++ [(request, outcome)])
    image := fun disk e source (state, record) =>
      let (image, state) := sv.image disk e source state
      (image, state, record)
    locale := sv.locale
    now := sv.now }

/-- The session with a record beside its state. -/
def Session.recording (s : Session σ) (record : Record) : Session (σ × Record) :=
  { state := (s.state, record), disk := s.disk, cache := s.cache, notes := s.notes }

/-- What a query sends: nothing, or its request. -/
def outgoing (sv : Services σ) (q : Query) (s : Session σ) : Record :=
  match (cached? sv.locale q.key s).or q.known with
  | some _ => []
  | none => [(q.request, (sv.write q.request s.state).1)]

/-! ### Turns -/

/-- A violation whose turn it is, and the session that it finds. -/
structure Turn (σ : Type) where
  violation : Violation
  session : Session σ

/-- The turns of a run over violations. A fault ends the run. -/
def turns (sv : Services σ) (files : List (String × SourceFile)) :
    List Violation → Session σ → List (Turn σ)
  | [], _ => []
  | v :: rest, s =>
    ⟨v, s⟩ :: match resolveOne sv files v s with
      | (.error _, _) => []
      | (.ok _, s) => turns sv files rest s

namespace Turn

variable {t : Turn σ} {q : Query}

/-- What is looked up in a turn: nothing if the violation does not need it, if its file is not
known, or if the image at its place cannot be had without a fault. -/
def query? (sv : Services σ) (files : List (String × SourceFile)) (t : Turn σ) : Option Query :=
  match pending? t.violation, files.lookup t.violation.filePath with
  | some (subject, _, params), some f =>
    (queryFor sv subject t.violation f params t.session).1.toOption
  | _, _ => none

/-- The session after a turn. -/
def after (sv : Services σ) (files : List (String × SourceFile)) (t : Turn σ) : Session σ :=
  (resolveOne sv files t.violation t.session).2

/-- What is sent in a turn, as a record that begins with the turn has it. -/
def sent (sv : Services σ) (files : List (String × SourceFile)) (t : Turn σ) : Record :=
  (resolveOne sv.recorded files t.violation (t.session.recording [])).2.state.2

end Turn

/-! ### Queries -/

/-- The query of an image, and what has become of the session, are up to the image alone. -/
theorem queryFor_image (v : Violation) (f : SourceFile) (params : Deferred.Params) :
    queryFor sv .image v f params s =
      ((imageFor sv v f (params.lookup "src") s).1.map fun
        | none => blindImageQuery v (PageContext.of f) sv.locale (params.lookup "src")
        | some image => imageQuery (PageContext.of f) sv.locale image,
      (imageFor sv v f (params.lookup "src") s).2) := by
  unfold queryFor
  dsimp only
  rcases imageFor sv v f (params.lookup "src") s with ⟨_ | _ | _, _⟩ <;> rfl

/-- An image is asked for blindly, or by what has been loaded of it. -/
theorem query_of_queryFor_image {v : Violation} {f : SourceFile} {params : Deferred.Params}
    (h : (queryFor sv .image v f params s).1 = .ok q) :
    q = blindImageQuery v (PageContext.of f) sv.locale (params.lookup "src") ∨
      ∃ image, q = imageQuery (PageContext.of f) sv.locale image := by
  rw [queryFor_image] at h
  cases loaded : (imageFor sv v f (params.lookup "src") s).1 with
  | error fault =>
    rw [loaded] at h
    cases h
  | ok image =>
    rw [loaded] at h
    cases image with
    | none =>
      cases h
      exact .inl rfl
    | some image =>
      cases h
      exact .inr ⟨image, rfl⟩

/-- A query changes what the images come from, and nothing else. -/
theorem queryFor_session (subject : Subject) (v : Violation) (f : SourceFile)
    (params : Deferred.Params) :
    (queryFor sv subject v f params s).2 =
      { s with state := (queryFor sv subject v f params s).2.state } := by
  cases subject with
  | title => rfl
  | label => rfl
  | image =>
    rw [queryFor_image]
    dsimp only
    unfold imageFor
    split <;> rfl

theorem cached?_queryFor (sv : Services σ) (subject : Subject) (v : Violation) (f : SourceFile)
    (params : Deferred.Params) (s : Session σ) (locale key : String) :
    cached? locale key (queryFor sv subject v f params s).2 = cached? locale key s := by
  rw [queryFor_session]
  rfl

theorem answer_of_some {rule text : String} {q : Query}
    (h : (cached? sv.locale q.key s).or q.known = some text) :
    answer sv rule q s = (.ok { text }, { s with cache := s.cache.load s.disk }) := by
  have look : cached? sv.locale q.key { s with cache := s.cache.load s.disk } =
      cached? sv.locale q.key s := rfl
  unfold answer
  simp only [look, h]

theorem answer_of_none {rule : String} {q : Query}
    (h : (cached? sv.locale q.key s).or q.known = none) :
    answer sv rule q s = ask sv rule q { s with cache := s.cache.load s.disk } := by
  have look : cached? sv.locale q.key { s with cache := s.cache.load s.disk } =
      cached? sv.locale q.key s := rfl
  unfold answer
  simp only [look, h]

/-! ### Runs with a record -/

theorem imageFor_recorded (v : Violation) (f : SourceFile) (source : Option String) :
    imageFor sv.recorded v f source (s.recording record) =
      ((imageFor sv v f source s).1, (imageFor sv v f source s).2.recording record) := by
  unfold imageFor
  split <;> rfl

theorem queryFor_recorded (subject : Subject) (v : Violation) (f : SourceFile)
    (params : Deferred.Params) :
    queryFor sv.recorded subject v f params (s.recording record) =
      ((queryFor sv subject v f params s).1,
        (queryFor sv subject v f params s).2.recording record) := by
  cases subject with
  | title => rfl
  | label => rfl
  | image =>
    rw [queryFor_image, queryFor_image, imageFor_recorded]
    rfl

theorem ask_recorded (rule : String) (q : Query) :
    ask sv.recorded rule q (s.recording record) =
      ((ask sv rule q s).1,
        (ask sv rule q s).2.recording (record ++ [(q.request, (sv.write q.request s.state).1)])) := by
  have asked : sv.recorded.write q.request (s.recording record).state =
      ((sv.write q.request s.state).1, (sv.write q.request s.state).2,
        record ++ [(q.request, (sv.write q.request s.state).1)]) := rfl
  unfold ask
  rw [asked]
  rcases sv.write q.request s.state with ⟨f | a, state⟩
  · rfl
  · dsimp only
    split <;> rfl

theorem answer_recorded (rule : String) (q : Query) :
    answer sv.recorded rule q (s.recording record) =
      ((answer sv rule q s).1, (answer sv rule q s).2.recording (record ++ outgoing sv q s)) := by
  have look : cached? sv.recorded.locale q.key (s.recording record) =
      cached? sv.locale q.key s := rfl
  unfold outgoing
  cases h : (cached? sv.locale q.key s).or q.known with
  | some text =>
    rw [answer_of_some h, answer_of_some (look ▸ h), List.append_nil]
    rfl
  | none =>
    rw [answer_of_none h, answer_of_none (look ▸ h)]
    exact ask_recorded (s := { s with cache := s.cache.load s.disk }) rule q

/-- What the fix of a violation sends. -/
def sentFor (sv : Services σ) (subject : Subject) (v : Violation) (f : SourceFile)
    (params : Deferred.Params) (s : Session σ) : Record :=
  match queryFor sv subject v f params s with
  | (.error _, _) => []
  | (.ok q, s) => outgoing sv q s

theorem resolveFix_recorded (subject : Subject) (v : Violation) (fix : Fix)
    (params : Deferred.Params) (f : SourceFile) :
    resolveFix sv.recorded subject v fix params f (s.recording record) =
      ((resolveFix sv subject v fix params f s).1,
        (resolveFix sv subject v fix params f s).2.recording
          (record ++ sentFor sv subject v f params s)) := by
  unfold resolveFix sentFor
  rw [queryFor_recorded]
  rcases queryFor sv subject v f params s with ⟨fault | q, s⟩
  · simp only [List.append_nil]
  · simp only [answer_recorded]
    rcases answer sv v.rule q s with ⟨(_ | _) | a, s⟩
    · rfl
    · rfl
    · dsimp only
      split <;> rfl

/-! ### One violation -/

/-- A violation needs a text if its rule is one of those that services write for, and the text of
its fix is deferred. -/
theorem pending?_eq_some_iff {v : Violation} {subject : Subject} {fix : Fix}
    {params : Deferred.Params} : pending? v = some (subject, fix, params) ↔
    subjectOf? v.rule = some subject ∧ v.fix = some fix ∧
      ∃ resolver, fix.value = .deferred resolver params := by
  unfold pending?
  constructor
  · intro h
    obtain ⟨subject', named, rest⟩ := Option.bind_eq_some_iff.mp h
    obtain ⟨fix', given, rest⟩ := Option.bind_eq_some_iff.mp rest
    split at rest
    · cases rest
    · rename_i deferred
      cases rest
      exact ⟨named, given, _, deferred⟩
  · rintro ⟨named, given, resolver, deferred⟩
    simp [named, given, deferred]

theorem needsResolution_of_none {v : Violation} (h : pending? v = none) :
    needsResolution v = false := by
  rw [needsResolution, h]
  rfl

/-- The violation needs a text, and its file is known. -/
structure Due (files : List (String × SourceFile)) (v : Violation) (subject : Subject) (fix : Fix)
    (params : Deferred.Params) (f : SourceFile) : Prop where
  pending : pending? v = some (subject, fix, params)
  found : files.lookup v.filePath = some f

variable {v : Violation} {subject : Subject} {fix : Fix} {params : Deferred.Params} {f : SourceFile}

theorem Due.resolveOne_eq (due : Due files v subject fix params f) (sv : Services σ)
    (s : Session σ) :
    resolveOne sv files v s =
      ((resolveFix sv subject v fix params f s).1.map fun (fix, usage) => ({ v with fix }, usage),
        (resolveFix sv subject v fix params f s).2) := by
  unfold resolveOne
  rw [due.pending, due.found]

/-- A violation that is not due stays as it is, whatever the services are. -/
theorem due_or_kept (files : List (String × SourceFile)) (v : Violation) :
    (∃ subject fix params f, Due files v subject fix params f) ∨
      (pending? v = none ∨ files.lookup v.filePath = none) ∧
        ∀ {σ : Type} (sv : Services σ) (s : Session σ),
          resolveOne sv files v s = (.ok (v, {}), s) := by
  unfold resolveOne
  rcases pending : pending? v with _ | ⟨subject, fix, params⟩
  · exact .inr ⟨.inl rfl, fun _ _ => rfl⟩
  · rcases found : files.lookup v.filePath with _ | f
    · exact .inr ⟨.inr rfl, fun _ _ => rfl⟩
    · exact .inl ⟨subject, fix, params, f, pending, found⟩

namespace Turn

variable {t : Turn σ} {q : Query}

theorem sent_of_due (due : Due files t.violation subject fix params f) :
    t.sent sv files = sentFor sv subject t.violation f params t.session := by
  unfold sent
  rw [due.resolveOne_eq, resolveFix_recorded]
  exact List.nil_append _

theorem resolveOne_recorded (t : Turn σ) :
    resolveOne sv.recorded files t.violation (t.session.recording record) =
      ((resolveOne sv files t.violation t.session).1,
        (t.after sv files).recording (record ++ t.sent sv files)) := by
  obtain ⟨subject, fix, params, f, due⟩ | ⟨-, kept⟩ := due_or_kept files t.violation
  · rw [sent_of_due due, after, due.resolveOne_eq, due.resolveOne_eq, resolveFix_recorded]
  · have nothing : t.sent sv files = [] := by
      unfold sent
      rw [kept]
      rfl
    rw [nothing, after, kept, kept, List.append_nil]

theorem query?_of_due (due : Due files t.violation subject fix params f) :
    t.query? sv files = (queryFor sv subject t.violation f params t.session).1.toOption := by
  unfold query?
  rw [due.pending, due.found]

theorem query?_of_not_due (h : pending? t.violation = none ∨
    files.lookup t.violation.filePath = none) : t.query? sv files = none := by
  unfold query?
  rcases h with h | h <;> rw [h]
  cases pending? t.violation <;> rfl

theorem query?_eq_some_iff : t.query? sv files = some q ↔
    ∃ subject fix params f, Due files t.violation subject fix params f ∧
      (queryFor sv subject t.violation f params t.session).1 = .ok q := by
  constructor
  · intro h
    obtain ⟨subject, fix, params, f, due⟩ | ⟨absent, -⟩ := due_or_kept files t.violation
    · refine ⟨subject, fix, params, f, due, ?_⟩
      rw [query?_of_due due] at h
      cases asked : (queryFor sv subject t.violation f params t.session).1 with
      | error fault => rw [asked] at h; cases h
      | ok q' => rw [asked] at h; cases h; rfl
    · rw [query?_of_not_due absent] at h
      cases h
  · rintro ⟨subject, fix, params, f, due, asked⟩
    rw [query?_of_due due, asked]
    rfl

/-- What a turn with a query sends: nothing if the text is known, and otherwise the request. -/
theorem sent_of_query? (h : t.query? sv files = some q) :
    ∃ outcome, t.sent sv files =
      if ((cached? sv.locale q.key t.session).or q.known).isSome then []
      else [(q.request, outcome)] := by
  obtain ⟨subject, fix, params, f, due, asked⟩ := query?_eq_some_iff.mp h
  rw [sent_of_due due]
  have look := cached?_queryFor sv subject t.violation f params t.session sv.locale q.key
  unfold sentFor
  rcases eq : queryFor sv subject t.violation f params t.session with ⟨o, s⟩
  rw [eq] at asked look
  cases asked
  refine ⟨(sv.write q.request s.state).1, ?_⟩
  simp only [outgoing, look]
  cases (cached? sv.locale q.key t.session).or q.known <;> rfl

theorem sent_of_query?_none (h : t.query? sv files = none) : t.sent sv files = [] := by
  obtain ⟨subject, fix, params, f, due⟩ | ⟨-, kept⟩ := due_or_kept files t.violation
  · rw [sent_of_due due]
    unfold sentFor
    rcases eq : queryFor sv subject t.violation f params t.session with ⟨fault | q, s⟩
    · rfl
    · rw [query?_of_due due, eq] at h
      cases h
  · unfold sent
    rw [kept]
    rfl

/-- A turn without a query is that of a violation that is not due, unless it ends the run. -/
theorem not_due_of_query?_none (h : t.query? sv files = none)
    (ok : (resolveOne sv files t.violation t.session).1.isOk) :
    pending? t.violation = none ∨ files.lookup t.violation.filePath = none := by
  obtain ⟨subject, fix, params, f, due⟩ | ⟨absent, -⟩ := due_or_kept files t.violation
  · rw [query?_of_due due] at h
    rw [due.resolveOne_eq, resolveFix] at ok
    rcases asked : queryFor sv subject t.violation f params t.session with ⟨fault | q, s⟩
    · rw [asked] at ok
      cases ok
    · rw [asked] at h
      cases h
  · exact absent

end Turn

/-! ### All violations -/

theorem resolveEach_of_error {rest : List Violation} {fault : Fault} {after : Session σ}
    (step : resolveOne sv files v s = (.error fault, after)) :
    resolveEach sv files (v :: rest) s = (.error fault, after) ∧
      turns sv files (v :: rest) s = [⟨v, s⟩] := by
  unfold resolveEach turns
  rw [step]
  exact ⟨rfl, rfl⟩

theorem resolveEach_of_ok {rest : List Violation} {w : Violation} {used : TokenUsage}
    {after : Session σ} (step : resolveOne sv files v s = (.ok (w, used), after)) :
    resolveEach sv files (v :: rest) s =
      ((resolveEach sv files rest after).1.map fun (ws, later) => (w :: ws, used.add later),
        (resolveEach sv files rest after).2) ∧
      turns sv files (v :: rest) s = ⟨v, s⟩ :: turns sv files rest after := by
  constructor
  · rw [resolveEach, step]
  · rw [turns, step]

/-- Violations have their turns in order, all of them if the run ends well. -/
theorem turns_violations (sv : Services σ) (files : List (String × SourceFile))
    (vs : List Violation) (s : Session σ) :
    ∃ unreached, vs = (turns sv files vs s).map (·.violation) ++ unreached ∧
      ((resolveEach sv files vs s).1.isOk → unreached = []) := by
  induction vs generalizing s with
  | nil => exact ⟨[], rfl, fun _ => rfl⟩
  | cons v rest ih =>
    rcases step : resolveOne sv files v s with ⟨fault | ⟨w, used⟩, after⟩
    · obtain ⟨run, taken⟩ := resolveEach_of_error step
      rw [run, taken]
      exact ⟨rest, rfl, nofun⟩
    · obtain ⟨run, taken⟩ := resolveEach_of_ok step
      obtain ⟨unreached, split, ends⟩ := ih after
      rw [run, taken]
      refine ⟨unreached, congrArg (v :: ·) split, fun ok => ends ?_⟩
      revert ok
      cases (resolveEach sv files rest after).1 <;> exact id

/-- No turn of a run that ends well ends it. -/
theorem isOk_of_mem_turns {vs : List Violation} {t : Turn σ} (mem : t ∈ turns sv files vs s)
    (ok : (resolveEach sv files vs s).1.isOk) :
    (resolveOne sv files t.violation t.session).1.isOk := by
  induction vs generalizing s with
  | nil => cases mem
  | cons v rest ih =>
    rcases step : resolveOne sv files v s with ⟨fault | ⟨w, used⟩, after⟩
    · rw [(resolveEach_of_error step).1] at ok
      cases ok
    · obtain ⟨run, taken⟩ := resolveEach_of_ok step
      rw [run] at ok
      rcases List.mem_cons.mp (taken ▸ mem) with rfl | later
      · rw [step]
        rfl
      · refine ih later ?_
        revert ok
        cases (resolveEach sv files rest after).1 <;> exact id

theorem resolveEach_recorded (sv : Services σ) (files : List (String × SourceFile))
    (vs : List Violation) (s : Session σ) (record : Record) :
    resolveEach sv.recorded files vs (s.recording record) =
      ((resolveEach sv files vs s).1, (resolveEach sv files vs s).2.recording
        (record ++ (turns sv files vs s).flatMap (·.sent sv files))) := by
  induction vs generalizing s record with
  | nil => simp [resolveEach, turns]
  | cons v rest ih =>
    have one : resolveOne sv.recorded files v (s.recording record) =
        ((resolveOne sv files v s).1,
          (resolveOne sv files v s).2.recording (record ++ Turn.sent sv files ⟨v, s⟩)) :=
      Turn.resolveOne_recorded ⟨v, s⟩
    rcases step : resolveOne sv files v s with ⟨fault | ⟨w, used⟩, after⟩ <;> rw [step] at one
    · obtain ⟨run, taken⟩ := resolveEach_of_error step
      rw [(resolveEach_of_error one).1, run, taken]
      simp
    · obtain ⟨run, taken⟩ := resolveEach_of_ok step
      rw [(resolveEach_of_ok one).1, run, taken, ih]
      simp

/-- A violation comes out of its turn with no more than its fix changed. -/
theorem resolveOne_fix {w : Violation} {used : TokenUsage}
    (h : (resolveOne sv files v s).1 = .ok (w, used)) : w = { v with fix := w.fix } := by
  obtain ⟨subject, fix, params, f, due⟩ | ⟨-, kept⟩ := due_or_kept files v
  · rw [due.resolveOne_eq] at h
    dsimp only at h
    cases came : (resolveFix sv subject v fix params f s).1 with
    | error fault =>
      rw [came] at h
      cases h
    | ok outcome =>
      rw [came] at h
      cases h
      rfl
  · rw [kept] at h
    cases h
    rfl

/-- Violations come out of a run with no more than their fixes changed. -/
theorem resolveEach_fix {vs ws : List Violation} {used : TokenUsage}
    (h : (resolveEach sv files vs s).1 = .ok (ws, used)) :
    ∀ w ∈ ws, ∃ v ∈ vs, w = { v with fix := w.fix } := by
  induction vs generalizing s ws used with
  | nil =>
    cases h
    exact nofun
  | cons v rest ih =>
    rcases step : resolveOne sv files v s with ⟨fault | ⟨first, used'⟩, after⟩
    · rw [(resolveEach_of_error step).1] at h
      cases h
    · rw [(resolveEach_of_ok step).1] at h
      dsimp only at h
      cases later : (resolveEach sv files rest after).1 with
      | error fault =>
        rw [later] at h
        cases h
      | ok outcome =>
        rw [later] at h
        cases h
        intro w mem
        rcases List.mem_cons.mp mem with rfl | mem
        · exact ⟨v, List.mem_cons_self, resolveOne_fix (by rw [step])⟩
        · obtain ⟨origin, mem', eq⟩ := ih later w mem
          exact ⟨origin, List.mem_cons_of_mem _ mem', eq⟩

/-- The session in which the turns of a run begin. -/
def begun (sv : Services σ) (vs : List Violation) (s : Session σ) : Session σ :=
  if vs.countP needsResolution = 0 then s
  else s.note (startNote (vs.countP needsResolution) sv.model)

theorem resolveAll_eq (sv : Services σ) (files : List (String × SourceFile))
    (vs : List Violation) (s : Session σ) :
    resolveAll sv files vs s = resolveEach sv files vs (begun sv vs s) := rfl

/-- A run with a record is the run, and the record is what its turns have sent. -/
theorem resolveAll_recorded (sv : Services σ) (files : List (String × SourceFile))
    (vs : List Violation) (s : Session σ) (record : Record) :
    resolveAll sv.recorded files vs (s.recording record) =
      ((resolveAll sv files vs s).1, (resolveAll sv files vs s).2.recording
        (record ++ (turns sv files vs (begun sv vs s)).flatMap (·.sent sv files))) := by
  have start : begun sv.recorded vs (s.recording record) = (begun sv vs s).recording record := by
    unfold begun
    split <;> rfl
  rw [resolveAll_eq, resolveAll_eq, start, resolveEach_recorded]

/-! ### Trails -/

/-- A relation from one session to a later one, with items that what is sent in between leads to. It
is up to the cache and the disk alone, it can be chained, and every query keeps it. -/
structure Trail {α : Type} (sv : Services σ) (items : String → Query → Record → List α)
    (R : Session σ → List α → Session σ → Prop) : Prop where
  nothing : ∀ {s s' : Session σ}, s'.cache = s.cache → s'.disk = s.disk → R s [] s'
  trans : ∀ {s s' s'' : Session σ} {first second : List α},
    R s first s' → R s' second s'' → R s (first ++ second) s''
  answer : ∀ rule q (s : Session σ), R s (items rule q (outgoing sv q s)) (answer sv rule q s).2

/-- The items that a turn leads to: those of its query, if it has one. -/
def Turn.items {α : Type} (sv : Services σ) (files : List (String × SourceFile))
    (items : String → Query → Record → List α) (t : Turn σ) : List α :=
  match t.query? sv files with
  | some q => items t.violation.rule q (t.sent sv files)
  | none => []

/-- After its query, a fix changes the notes and nothing else. -/
theorem resolveFix_after {q : Query} (fix : Fix) {s' : Session σ}
    (asked : queryFor sv subject v f params s = (.ok q, s')) :
    (resolveFix sv subject v fix params f s).2.cache = (answer sv v.rule q s').2.cache ∧
      (resolveFix sv subject v fix params f s).2.disk = (answer sv v.rule q s').2.disk := by
  unfold resolveFix
  simp only [asked]
  rcases answer sv v.rule q s' with ⟨(_ | _) | a, after⟩
  · exact ⟨rfl, rfl⟩
  · exact ⟨rfl, rfl⟩
  · dsimp only
    split <;> exact ⟨rfl, rfl⟩

namespace Trail

variable {α : Type} {items : String → Query → Record → List α}
  {R : Session σ → List α → Session σ → Prop}

/-- A turn keeps what its query keeps, whatever becomes of the fix. -/
theorem turn (trail : Trail sv items R) (files : List (String × SourceFile)) (t : Turn σ) :
    R t.session (t.items sv files items) (t.after sv files) := by
  unfold Turn.items
  obtain ⟨subject, fix, params, f, due⟩ | ⟨absent, kept⟩ := due_or_kept files t.violation
  · have looked : R t.session [] (queryFor sv subject t.violation f params t.session).2 := by
      rw [queryFor_session]
      exact trail.nothing rfl rfl
    rw [Turn.query?_of_due due, Turn.sent_of_due due, Turn.after, due.resolveOne_eq, sentFor]
    rcases asked : queryFor sv subject t.violation f params t.session with ⟨fault | q, s⟩
    · rw [asked] at looked
      unfold resolveFix
      rw [asked]
      exact looked
    · rw [asked] at looked
      obtain ⟨cache, disk⟩ := resolveFix_after fix asked
      have noted : R (Resolution.answer sv t.violation.rule q s).2 []
          (resolveFix sv subject t.violation fix params f t.session).2 := trail.nothing cache disk
      simpa [Except.toOption] using
        trail.trans (trail.trans looked (trail.answer t.violation.rule q s)) noted
  · rw [Turn.query?_of_not_due absent, Turn.after, kept]
    exact trail.nothing rfl rfl

/-- A run keeps what its turns keep, also if a fault ends it. -/
theorem each (trail : Trail sv items R) (files : List (String × SourceFile)) (vs : List Violation)
    (s : Session σ) :
    R s ((turns sv files vs s).flatMap (·.items sv files items)) (resolveEach sv files vs s).2 := by
  induction vs generalizing s with
  | nil => exact trail.nothing rfl rfl
  | cons v rest ih =>
    have one : R s (Turn.items sv files items ⟨v, s⟩) (resolveOne sv files v s).2 :=
      trail.turn files ⟨v, s⟩
    rcases step : resolveOne sv files v s with ⟨fault | ⟨w, used⟩, after⟩ <;> rw [step] at one
    · obtain ⟨run, taken⟩ := resolveEach_of_error step
      rw [run, taken]
      simpa using one
    · obtain ⟨run, taken⟩ := resolveEach_of_ok step
      rw [run, taken]
      simpa using trail.trans one (ih after)

theorem all (trail : Trail sv items R) (files : List (String × SourceFile)) (vs : List Violation)
    (s : Session σ) :
    R s ((turns sv files vs (begun sv vs s)).flatMap (·.items sv files items))
      (resolveAll sv files vs s).2 := by
  rw [resolveAll_eq]
  have noted : R s [] (begun sv vs s) := by
    unfold begun
    split <;> exact trail.nothing rfl rfl
  simpa using trail.trans noted (trail.each files vs (begun sv vs s))

end Trail

end JsxAudit.Resolution
