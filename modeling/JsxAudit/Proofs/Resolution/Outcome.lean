import JsxAudit.Proofs.Resolution.Turns
import JsxAudit.Proofs.Rule.Deferred
import JsxAudit.Proofs.Rule.Report
import Mathlib.Data.List.Forall2

/-!
How violations come out of a run.

Refusals do not end a run, since what the rules defer can always be found without a service. What is
left is the fault of an image that is looked up in some turn. If no turn loses its image so, every
violation comes out in its place, with no more than its fix changed, and the tokens are those of the
requests that have been answered: `resolveAll_outcome`.
-/

namespace JsxAudit.Resolution

open Audit Data Generation Source Storage

variable {σ : Type} {sv : Services σ} {files : List (String × SourceFile)} {s s' : Session σ}
  {v : Violation} {q : Query} {subject : Subject} {fix : Fix} {params : Deferred.Params}
  {f : SourceFile}

/-! ### What a violation comes to -/

/-- How a violation can come out of a run. -/
inductive Outcome (files : List (String × SourceFile)) : Violation → Violation → Prop
  /-- It needs no text, or its file is not known. -/
  | kept {v : Violation} :
      needsResolution v = false ∨ files.lookup v.filePath = none → Outcome files v v
  /-- There is no text for it. -/
  | dropped {v : Violation} {subject : Subject} {fix : Fix} {params : Deferred.Params}
      {f : SourceFile} :
      Due files v subject fix params f → Outcome files v { v with fix := none }
  /-- It has a text. -/
  | written {v : Violation} {subject : Subject} {fix : Fix} {params : Deferred.Params}
      {f : SourceFile} (text : String) :
      Due files v subject fix params f → Outcome files v { v with fix := some (fix.withText text) }

/-- The image at the place of the violation whose turn it is ends in the fault. -/
inductive Turn.LosesImage (sv : Services σ) (files : List (String × SourceFile)) (t : Turn σ)
    (fault : Fault) : Prop
  | intro {fix : Fix} {params : Deferred.Params} {f : SourceFile} {e : Element} :
      Due files t.violation .image fix params f →
      (t.violation.anchor).bind (f.elementAt? ·) = some e →
      (sv.image t.session.disk e (params.lookup "src") t.session.state).1 = .error fault →
      t.LosesImage sv files fault

/-- The service answers, with a text that may be empty, or it refuses. -/
def Services.Polite (sv : Services σ) : Prop :=
  ∀ request state fault, (sv.write request state).1 ≠ .error (.fault fault)

/-! ### Tokens -/

/-- The tokens that a request has taken: none unless it has been answered. -/
def tokensOf : Except Failure TextAnswer → TokenUsage
  | .ok a => a.usage
  | .error _ => {}

/-- The tokens of all the requests of a record. -/
def Record.tokens (record : Record) : TokenUsage :=
  record.foldr (fun request total => (tokensOf request.2).add total) {}

theorem add_none (u : TokenUsage) : u.add {} = u := by
  cases u
  simp [TokenUsage.add]

theorem none_add (u : TokenUsage) : TokenUsage.add {} u = u := by
  cases u
  simp [TokenUsage.add]

theorem add_assoc (u v w : TokenUsage) : (u.add v).add w = u.add (v.add w) := by
  simp [TokenUsage.add, Int.add_assoc]

theorem Record.tokens_append (a b : Record) :
    Record.tokens (a ++ b) = (Record.tokens a).add (Record.tokens b) := by
  induction a with
  | nil => exact (none_add _).symm
  | cons request rest ih =>
    unfold Record.tokens at *
    rw [List.cons_append, List.foldr_cons, List.foldr_cons, ih, add_assoc]

/-! ### One query -/

theorem answer_fst (rule : String) : (answer sv rule q s).1 =
    match (cached? sv.locale q.key s).or q.known with
    | some text => .ok { text }
    | none => (sv.write q.request s.state).1 := by
  cases h : (cached? sv.locale q.key s).or q.known with
  | some text => rw [answer_of_some h]
  | none =>
    rw [answer_of_none h, ask]
    rcases sv.write q.request s.state with ⟨_ | _, _⟩ <;> rfl

/-- The tokens of an answer are those of what the query has sent. -/
theorem tokens_outgoing (rule : String) :
    Record.tokens (outgoing sv q s) = tokensOf (answer sv rule q s).1 := by
  rw [answer_fst, outgoing]
  cases (cached? sv.locale q.key s).or q.known with
  | some text => rfl
  | none => exact add_none _

theorem Services.Polite.answer_ne (polite : sv.Polite) (rule : String) (fault : Fault) :
    (answer sv rule q s).1 ≠ .error (.fault fault) := by
  rw [answer_fst]
  cases (cached? sv.locale q.key s).or q.known with
  | some text => nofun
  | none => exact polite _ _ _

/-! ### One violation -/

/-- Without a service a fix has a text or is dropped. -/
theorem offlineFix_ok (offline : Rule.HasOfflineText fix) (subject : Subject) (v : Violation)
    (f : SourceFile) : ∃ text : Option String,
      offlineFix subject v fix f = .ok (text.map fix.withText) := by
  obtain ⟨found, eq⟩ := offline
  unfold offlineFix offlineText
  cases subject with
  | image => exact ⟨_, rfl⟩
  | label => rw [eq]; exact ⟨_, rfl⟩
  | title => rw [eq]; exact ⟨_, rfl⟩

/-- Nothing but its image can keep the query of a turn from being made. -/
theorem losesImage_of_queryFor {t : Turn σ} {fault : Fault}
    (due : Due files t.violation subject fix params f)
    (h : (queryFor sv subject t.violation f params t.session).1 = .error fault) :
    t.LosesImage sv files fault := by
  cases subject with
  | label => cases h
  | title => cases h
  | image =>
    rw [queryFor_image] at h
    dsimp only at h
    unfold imageFor at h
    cases place : (t.violation.anchor).bind (f.elementAt? ·) with
    | none =>
      rw [place] at h
      cases h
    | some e =>
      simp only [place] at h
      cases loaded : (sv.image t.session.disk e (params.lookup "src") t.session.state).1 with
      | ok image =>
        rw [loaded] at h
        cases h
      | error fault' =>
        rw [loaded] at h
        cases h
        exact .intro due place loaded

/-- A turn that loses its image ends the run. -/
theorem Turn.LosesImage.resolveOne_eq {t : Turn σ} {fault : Fault}
    (h : t.LosesImage sv files fault) :
    (resolveOne sv files t.violation t.session).1 = .error fault := by
  cases h with
  | @intro fix params f e due place loaded =>
    have lost : (queryFor sv .image t.violation f params t.session).1 = .error fault := by
      rw [queryFor_image]
      dsimp only
      unfold imageFor
      simp only [place, loaded]
      rfl
    rw [due.resolveOne_eq]
    dsimp only
    unfold resolveFix
    generalize queryFor sv .image t.violation f params t.session = looked at lost
    obtain ⟨o, after⟩ := looked
    cases lost
    rfl

/-- A fix that is resolved has a text or is dropped, and the tokens are those of the requests that
have been answered, if its query can be made. -/
theorem resolveFix_ok (polite : sv.Polite) (offline : Rule.HasOfflineText fix)
    (subject : Subject) (v : Violation) (params : Deferred.Params) (f : SourceFile)
    (s : Session σ) :
    (∃ text : Option String, (resolveFix sv subject v fix params f s).1 =
      .ok (text.map fix.withText, Record.tokens (sentFor sv subject v f params s))) ∨
    ∃ fault, (resolveFix sv subject v fix params f s).1 = .error fault ∧
      (queryFor sv subject v f params s).1 = .error fault := by
  obtain ⟨text, without⟩ := offlineFix_ok offline subject v f
  unfold resolveFix sentFor
  rcases asked : queryFor sv subject v f params s with ⟨fault | q, s'⟩
  · exact .inr ⟨fault, rfl, rfl⟩
  · left
    dsimp only
    rw [tokens_outgoing v.rule]
    have noFault := polite.answer_ne (q := q) (s := s') v.rule
    rcases got : answer sv v.rule q s' with ⟨(message | fault) | a, after⟩
    · exact ⟨text, by rw [without]; rfl⟩
    · exact (noFault fault (by rw [got])).elim
    · by_cases empty : a.text = ""
      · exact ⟨text, by simp only [empty, if_true, without]; rfl⟩
      · exact ⟨some (finished subject params a.text), by simp only [empty, if_false]; rfl⟩

/-- The text of a fix that is resolved can be found without a service. -/
def Offline (v : Violation) : Prop :=
  ∀ fix, v.fix = some fix → needsResolution v → Rule.HasOfflineText fix

/-- The rules that services write for are those of the type that says so. -/
theorem type_of_subjectOf? : ∀ r ∈ Rule.all, (subjectOf? r.id).isSome → r.type = .ai := by
  decide +kernel

/-- What rules report can be resolved without a service. -/
theorem offline_of_mem_scan {r : Rule} {settings : RuleSettings} {g : SourceFile}
    (known : r ∈ Rule.all) (h : v ∈ r.scan settings g) : Offline v := by
  intro fix given needed
  refine Rule.hasOfflineText_of_mem_scan known ?_ h given
  obtain ⟨⟨subject, fix', params⟩, pending⟩ := Option.isSome_iff_exists.mp needed
  have named := (pending?_eq_some_iff.mp pending).1
  rw [(Rule.reports_of_mem_scan known h).rule] at named
  exact type_of_subjectOf? r known (Option.isSome_of_eq_some named)

/-- One violation has its outcome, whatever the service says to it. -/
theorem resolveOne_outcome (polite : sv.Polite) (offline : Offline v)
    (files : List (String × SourceFile)) (s : Session σ) :
    (∃ w, Outcome files v w ∧
      (resolveOne sv files v s).1 = .ok (w, Record.tokens (Turn.sent sv files ⟨v, s⟩))) ∨
    ∃ fault, (resolveOne sv files v s).1 = .error fault ∧
      Turn.LosesImage sv files ⟨v, s⟩ fault := by
  obtain ⟨subject, fix, params, f, due⟩ | ⟨absent, kept⟩ := due_or_kept files v
  · have given := (pending?_eq_some_iff.mp due.pending).2.1
    have needed : needsResolution v := by rw [needsResolution, due.pending]; rfl
    have sent : Turn.sent sv files ⟨v, s⟩ = sentFor sv subject v f params s :=
      Turn.sent_of_due (t := ⟨v, s⟩) due
    rw [due.resolveOne_eq, sent]
    obtain ⟨text, eq⟩ | ⟨fault, eq, faulty⟩ :=
      resolveFix_ok polite (offline fix given needed) subject v params f s
    · left
      rw [eq]
      cases text with
      | none => exact ⟨_, .dropped due, rfl⟩
      | some text => exact ⟨_, .written text due, rfl⟩
    · right
      rw [eq]
      exact ⟨fault, rfl, losesImage_of_queryFor (t := ⟨v, s⟩) due faulty⟩
  · left
    refine ⟨v, .kept (absent.imp_left needsResolution_of_none), ?_⟩
    rw [Turn.sent, kept, kept]
    rfl

/-! ### All violations -/

/-- The turns of a run end with one that loses its image. -/
def LostIn (sv : Services σ) (files : List (String × SourceFile)) (ts : List (Turn σ))
    (fault : Fault) : Prop :=
  ∃ before t, ts = before ++ [t] ∧ t.LosesImage sv files fault

theorem resolveEach_outcome (polite : sv.Polite) (files : List (String × SourceFile))
    {vs : List Violation} (offline : ∀ v ∈ vs, Offline v) (s : Session σ) :
    (∃ ws, List.Forall₂ (Outcome files) vs ws ∧
      (resolveEach sv files vs s).1 =
        .ok (ws, Record.tokens ((turns sv files vs s).flatMap (·.sent sv files)))) ∨
    ∃ fault, (resolveEach sv files vs s).1 = .error fault ∧
      LostIn sv files (turns sv files vs s) fault := by
  induction vs generalizing s with
  | nil => exact .inl ⟨[], .nil, rfl⟩
  | cons v rest ih =>
    rcases step : resolveOne sv files v s with ⟨first, after⟩
    have one := resolveOne_outcome polite (offline v List.mem_cons_self) files s
    rw [step] at one
    obtain ⟨w, came, rfl⟩ | ⟨fault, rfl, lost⟩ := one
    · obtain ⟨run, taken⟩ := resolveEach_of_ok step
      rw [run, taken]
      obtain ⟨ws, later, eq⟩ | ⟨fault, eq, before, t, split, lost⟩ :=
        ih (fun v' mem => offline v' (List.mem_cons_of_mem _ mem)) after
      · refine .inl ⟨w :: ws, .cons came later, ?_⟩
        rw [eq, List.flatMap_cons, Record.tokens_append]
        rfl
      · refine .inr ⟨fault, ?_, ⟨v, s⟩ :: before, t, by rw [split]; rfl, lost⟩
        rw [eq]
        rfl
    · obtain ⟨run, taken⟩ := resolveEach_of_error step
      exact .inr ⟨fault, by rw [run], [], ⟨v, s⟩, taken, lost⟩

/-- Violations that rules have reported come out of a run in their order, each with no more than its
fix changed, unless a turn of the run loses its image. Each has its turn, whatever the service has
refused before, and the tokens are those of the requests that have been answered. A turn that loses
its image is the last one, and its fault is what comes of the run. -/
theorem resolveAll_outcome (polite : sv.Polite) (files : List (String × SourceFile))
    {vs : List Violation}
    (reported : ∀ v ∈ vs, ∃ r ∈ Rule.all, ∃ settings f, v ∈ r.scan settings f) (s : Session σ) :
    ((∀ t ∈ turns sv files vs (begun sv vs s), ∀ fault, ¬ t.LosesImage sv files fault) ∧
      ∃ ws usage after, resolveAll sv files vs s = (.ok (ws, usage), after) ∧
        List.Forall₂ (Outcome files) vs ws ∧
        (turns sv files vs (begun sv vs s)).map (·.violation) = vs ∧
        ∃ record : Record, resolveAll sv.recorded files vs (s.recording []) =
          (.ok (ws, usage), after.recording record) ∧ usage = record.tokens) ∨
    ∃ fault after, resolveAll sv files vs s = (.error fault, after) ∧
      LostIn sv files (turns sv files vs (begun sv vs s)) fault := by
  have offline : ∀ v ∈ vs, Offline v := by
    intro v mem
    obtain ⟨r, known, settings, f, found⟩ := reported v mem
    exact offline_of_mem_scan known found
  rw [resolveAll_recorded, resolveAll_eq]
  rcases run : resolveEach sv files vs (begun sv vs s) with ⟨o, after⟩
  have each := resolveEach_outcome polite files offline (begun sv vs s)
  rw [run] at each
  obtain ⟨ws, came, rfl⟩ | ⟨fault, rfl, lost⟩ := each
  · obtain ⟨unreached, split, ends⟩ := turns_violations sv files vs (begun sv vs s)
    rw [run] at ends
    rw [ends rfl, List.append_nil] at split
    refine .inl ⟨fun t mem fault lost => ?_, ws, _, after, rfl, came, split.symm, _, rfl, rfl⟩
    have ok := isOk_of_mem_turns mem (by rw [run]; rfl)
    rw [lost.resolveOne_eq] at ok
    cases ok
  · exact .inr ⟨fault, after, rfl, lost⟩

/-- Services that refuse their first request, have no images, and then always write one text. -/
def refusingOnce : Services Nat where
  model := "m"
  write _ asked :=
    (if asked = 0 then .error (.refused "busy") else .ok { text := "Name", usage := ⟨7, 2⟩ },
      asked + 1)
  image _ _ _ asked := (.ok none, asked)
  locale := "en"
  now := ""

/-- A button and a field without names are both resolved, although the first request is refused, and
the tokens are those of the second one. -/
theorem resolveAll_outcome_refused :
    ∃ f ∈ SourceFile.parse "/p/a.tsx" "<><button><BasketIcon/></button><input/></>",
      let vs := Rule.buttonLabel.scan {} f ++ Rule.inputLabel.scan {} f
      ∃ ws usage after, resolveAll refusingOnce [(f.path, f)] vs
          { state := 0, disk := {}, cache := { folder := "/cache" } } = (.ok (ws, usage), after) ∧
        List.Forall₂ (Outcome [(f.path, f)]) vs ws ∧ ws.length = 2 ∧ usage = ⟨7, 2⟩ := by
  have computed : ∃ f ∈ SourceFile.parse "/p/a.tsx" "<><button><BasketIcon/></button><input/></>",
      let vs := Rule.buttonLabel.scan {} f ++ Rule.inputLabel.scan {} f
      vs.length = 2 ∧
      (resolveAll refusingOnce [(f.path, f)] vs
        { state := 0, disk := {}, cache := { folder := "/cache" } }).1.toOption.map (·.2) =
        some ⟨7, 2⟩ := by
    decide +kernel
  obtain ⟨f, parsed, two, tokens⟩ := computed
  refine ⟨f, parsed, ?_⟩
  intro vs
  have polite : refusingOnce.Polite := by
    intro request asked fault
    unfold refusingOnce
    dsimp only
    split <;> nofun
  have reported : ∀ v ∈ vs, ∃ r ∈ Rule.all, ∃ settings g, v ∈ r.scan settings g := by
    intro v mem
    rcases List.mem_append.mp mem with mem | mem
    · exact ⟨Rule.buttonLabel, by simp [Rule.all], {}, f, mem⟩
    · exact ⟨Rule.inputLabel, by simp [Rule.all], {}, f, mem⟩
  obtain ⟨-, ws, usage, after, ran, came, -⟩ | ⟨fault, after, ran, _, _, _, _, _, faulty⟩ :=
    resolveAll_outcome polite [(f.path, f)] reported
      { state := 0, disk := {}, cache := { folder := "/cache" } }
  · rw [ran] at tokens
    exact ⟨ws, usage, after, ran, came, came.length_eq.symm.trans two, Option.some.inj tokens⟩
  · cases faulty

end JsxAudit.Resolution
