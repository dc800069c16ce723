import JsxAudit.Config.Resolve
import JsxAudit.Generation.Request
import JsxAudit.Generation.Wire

/-!
The service of a configuration, asked with patience.

After a refusal it is asked again. The pauses between attempts grow by one second each. Only
refusals are worth another attempt; a fault and an answer both end the asking.
-/

namespace JsxAudit.Generation

open Config Http

/-! ### Asking again -/

section Retry

variable {σ : Type}

/-- Asks until there is an answer or a fault, or until no attempt is left. The pause before the
next attempt is `wait` seconds, and each later one is a second longer. -/
def askAgain (attempt : σ → Except Failure TextAnswer × σ) (pause : Nat → σ → σ) :
    (left wait : Nat) → σ → Except Failure TextAnswer × σ
  | 0, _, s => attempt s
  | left + 1, wait, s =>
    match attempt s with
    | (.error (.refused _), s) => askAgain attempt pause left (wait + 1) (pause wait s)
    | ended => ended

/-- What is said when every attempt was refused. -/
def exhausted (attempts : Nat) (message : String) : String :=
  "Generation failed after " ++ toString attempts ++ " attempts: " ++ message

/-- How the attempts end as a whole. -/
inductive Conclusion where
  | answered (answer : TextAnswer)
  | gaveUp (attempts : Nat) (message : String)
  | brokenOff (f : Data.Fault)
  deriving DecidableEq, Repr

/-- What follows from the outcome of the last attempt. Texts are trimmed. -/
def conclude (trim : String → String) (attempts : Nat) : Except Failure TextAnswer → Conclusion
  | .ok answer => .answered { answer with text := trim answer.text }
  | .error (.refused message) => .gaveUp attempts message
  | .error (.fault f) => .brokenOff f

/-- What the asker sees of it. The number of attempts is in the message. -/
def Conclusion.seen : Conclusion → Except Failure TextAnswer
  | .answered answer => .ok answer
  | .gaveUp attempts message => .error (.refused (exhausted attempts message))
  | .brokenOff f => .error (.fault f)

/-- The outcome as the asker sees it. -/
def concluded (trim : String → String) (attempts : Nat) (outcome : Except Failure TextAnswer) :
    Except Failure TextAnswer :=
  (conclude trim attempts outcome).seen

/-- One request with up to `retries` further attempts. -/
def persistently (trim : String → String) (retries : Nat)
    (attempt : σ → Except Failure TextAnswer × σ) (pause : Nat → σ → σ) (s : σ) :
    Except Failure TextAnswer × σ :=
  let (outcome, s) := askAgain attempt pause retries 1 s
  (concluded trim (retries + 1) outcome, s)

end Retry

/-! ### The service -/

/-- Why no service can be used. -/
inductive ServiceError where
  | notConfigured
  | missingKey (provider : Provider) (variable' : String)
  deriving DecidableEq, Repr

def ServiceError.message : ServiceError → String
  | .notConfigured =>
    "No AI provider configured. Set OPENAI_API_KEY, ANTHROPIC_API_KEY, " ++
      "GOOGLE_GENERATIVE_AI_API_KEY or OPENROUTER_API_KEY, pass --provider, or use --no-ai."
  | .missingKey provider variable' =>
    "Provider " ++ Text.quoted provider.name ++ " requires " ++ variable' ++ " to be set"

/-- The format in which a service is asked. -/
def wireOf : Provider → Wire
  | .openai | .openrouter => .completions
  | .anthropic => .messages
  | .google => .candidates
  | .ollama => .chat

/-- Where a service is found, if not at the usual address of its format. -/
def addressOf (env : Provider.Environment) : Provider → Option String
  | .openrouter => some "https://openrouter.ai/api/v1"
  | .ollama => env.lookup "OLLAMA_BASE_URL"
  | _ => none

/-- The endpoint that a configuration names. -/
def endpointOf (c : ResolvedConfig) (env : Provider.Environment) : Except ServiceError Endpoint :=
  match c.provider with
  | none => .error .notConfigured
  | some p =>
    let endpoint (key : Option String) : Endpoint :=
      { wire := wireOf p, model := c.model, key, address := addressOf env p }
    match p.keyVariable? with
    | none => .ok (endpoint none)
    | some variable' =>
      match Provider.given? env variable' with
      | some key => .ok (endpoint (some key))
      | none => .error (.missingKey p variable')

/-- Further attempts after a refusal. -/
def defaultRetries : Nat := 2

/-- Has a text written, asking again after refusals. -/
def Endpoint.write (e : Endpoint) (net : Network) (retries : Nat) (r : TextRequest) (t : Trace) :
    Except Failure TextAnswer × Trace :=
  persistently Text.trim retries (e.ask net r) Trace.pause t

end JsxAudit.Generation
