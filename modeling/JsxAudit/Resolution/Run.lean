import JsxAudit.Report.Result
import JsxAudit.Resolution.Query

/-!
Resolving deferred texts, one after the other.

Each text is looked up in the cache, then among the texts known without asking, and only then
asked for. An answer is stored unless it is empty. Where asking fails, or the answer is empty, the
offline text stands in, and nothing is stored.
-/

namespace JsxAudit.Resolution

open Audit Cache Data Generation Report Source Storage

variable {σ : Type}

/-- What texts and images come from, and what they are for. -/
structure Services (σ : Type) where
  /-- The model that is asked. -/
  model : String
  write : TextRequest → σ → Except Failure TextAnswer × σ
  image : Disk → Element → Option String → σ → Except Fault (Option (List UInt8)) × σ
  locale : String
  now : String

/-- What a run goes along with. -/
structure Session (σ : Type) where
  state : σ
  disk : Disk
  cache : ResultCache
  notes : List Note := []

/-- The session with one more note. -/
def Session.note (s : Session σ) (n : Note) : Session σ :=
  { s with notes := s.notes ++ [n] }

/-! ### One query -/

/-- The cached text under a key, if it is for the locale and not empty. -/
def cached? (locale key : String) (s : Session σ) : Option String :=
  ((s.cache.get? s.disk key).filter fun e => e.locale = locale && e.value != "").map (·.value)

/-- The session with a text stored. -/
def store (sv : Services σ) (rule key text : String) (s : Session σ) : Session σ :=
  let (cache, disk) := s.cache.set s.disk key
    { value := text, model := sv.model, locale := sv.locale, rule, generatedAt := sv.now }
  { s with cache, disk }

/-- The text of a request, which is stored unless it is empty. -/
def ask (sv : Services σ) (rule : String) (q : Query) (s : Session σ) :
    Except Failure TextAnswer × Session σ :=
  match sv.write q.request s.state with
  | (.error f, state) => (.error f, { s with state })
  | (.ok a, state) =>
    let s := { s with state }
    (.ok a, if a.text = "" then s else store sv rule q.key a.text s)

/-- The text that answers a query. -/
def answer (sv : Services σ) (rule : String) (q : Query) (s : Session σ) :
    Except Failure TextAnswer × Session σ :=
  let s := { s with cache := s.cache.load s.disk }
  match (cached? sv.locale q.key s).or q.known with
  | some text => (.ok { text }, s)
  | none => ask sv rule q s

/-! ### One violation -/

/-- The image at the place of a violation. -/
def imageFor (sv : Services σ) (v : Violation) (f : SourceFile) (source : Option String)
    (s : Session σ) : Except Fault (Option (List UInt8)) × Session σ :=
  match (v.anchor).bind (f.elementAt? ·) with
  | none => (.ok none, s)
  | some e =>
    let (image, state) := sv.image s.disk e source s.state
    (image, { s with state })

/-- The query of a violation. -/
def queryFor (sv : Services σ) (subject : Subject) (v : Violation) (f : SourceFile)
    (params : Deferred.Params) (s : Session σ) : Except Fault Query × Session σ :=
  let context := PageContext.of f
  match subject with
  | .title => (.ok (titleQuery context sv.locale), s)
  | .label => (.ok (labelQuery v context sv.locale (params.lookup "icon")), s)
  | .image =>
    let source := params.lookup "src"
    match imageFor sv v f source s with
    | (.error fault, s) => (.error fault, s)
    | (.ok none, s) => (.ok (blindImageQuery v context sv.locale source), s)
    | (.ok (some image), s) => (.ok (imageQuery context sv.locale image), s)

/-- What is said when a text could not be had. -/
def fallbackNote (v : Violation) (message : String) : Note :=
  .warning (v.location ++ " " ++ v.rule ++ ": " ++ message ++ "; using fallback")

/-- The fix of a violation with its text known, or none, and the tokens that it took. -/
def resolveFix (sv : Services σ) (subject : Subject) (v : Violation) (fix : Fix)
    (params : Deferred.Params) (f : SourceFile) (s : Session σ) :
    Except Fault (Option Fix × TokenUsage) × Session σ :=
  match queryFor sv subject v f params s with
  | (.error fault, s) => (.error fault, s)
  | (.ok q, s) =>
    match answer sv v.rule q s with
    | (.error (.fault fault), s) => (.error fault, s)
    | (.error (.refused message), s) =>
      ((offlineFix subject v fix f).map fun fix => (fix, {}), s.note (fallbackNote v message))
    | (.ok a, s) =>
      if a.text = "" then ((offlineFix subject v fix f).map fun fix => (fix, a.usage), s)
      else (.ok (some (fix.withText (finished subject params a.text)), a.usage), s)

/-- A violation with its fix resolved, if it needs that and its file is known. -/
def resolveOne (sv : Services σ) (files : List (String × SourceFile)) (v : Violation)
    (s : Session σ) : Except Fault (Violation × TokenUsage) × Session σ :=
  match pending? v, files.lookup v.filePath with
  | some (subject, fix, params), some f =>
    let (outcome, s) := resolveFix sv subject v fix params f s
    (outcome.map fun (fix, usage) => ({ v with fix }, usage), s)
  | _, _ => (.ok (v, {}), s)

/-! ### All violations -/

/-- Violations resolved in order, and the tokens that they took together. -/
def resolveEach (sv : Services σ) (files : List (String × SourceFile)) :
    List Violation → Session σ → Except Fault (List Violation × TokenUsage) × Session σ
  | [], s => (.ok ([], {}), s)
  | v :: rest, s =>
    match resolveOne sv files v s with
    | (.error fault, s) => (.error fault, s)
    | (.ok (v, used), s) =>
      let (outcome, s) := resolveEach sv files rest s
      (outcome.map fun (vs, later) => (v :: vs, used.add later), s)

/-- What is said before texts are asked for. -/
def startNote (count : Nat) (model : String) : Note :=
  .step ("🤖 Generating text for " ++ toString count ++ " fix(es) with " ++ model)

/-- Resolve the texts that need it. -/
def resolveAll (sv : Services σ) (files : List (String × SourceFile)) (violations : List Violation)
    (s : Session σ) : Except Fault (List Violation × TokenUsage) × Session σ :=
  let count := violations.countP needsResolution
  resolveEach sv files violations (if count = 0 then s else s.note (startNote count sv.model))

end JsxAudit.Resolution
