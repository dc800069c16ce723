/-!
The services that can write texts.
-/

namespace JsxAudit.Config

inductive Provider where
  | openai | anthropic | google | ollama | openrouter
  deriving DecidableEq, Repr

namespace Provider

def all : List Provider :=
  [.openai, .anthropic, .google, .ollama, .openrouter]

def name : Provider → String
  | openai => "openai"
  | anthropic => "anthropic"
  | google => "google"
  | ollama => "ollama"
  | openrouter => "openrouter"

def ofName? (s : String) : Option Provider :=
  all.find? (·.name = s)

/-- The model that a service is asked for if none is named. -/
def defaultModel : Provider → String
  | openai => "gpt-4o-mini"
  | anthropic => "claude-haiku-4-5-20251001"
  | google => "gemini-2.0-flash-lite"
  | ollama => "llava"
  | openrouter => "openai/gpt-4o-mini"

/-- The environment variable that holds the key of a service, if it needs one. -/
def keyVariable? : Provider → Option String
  | openai => some "OPENAI_API_KEY"
  | anthropic => some "ANTHROPIC_API_KEY"
  | google => some "GOOGLE_GENERATIVE_AI_API_KEY"
  | ollama => none
  | openrouter => some "OPENROUTER_API_KEY"

/-- Environment variables and their values. -/
abbrev Environment := List (String × String)

/-- A variable that is set and not empty. -/
def given? (env : Environment) (variable' : String) : Option String :=
  (env.lookup variable').filter (· != "")

/-- The first service whose key is in the environment. -/
def detect? (env : Environment) : Option Provider :=
  all.find? fun p => (p.keyVariable?.bind (given? env)).isSome

end Provider

/-- The model named where there is no service. -/
def fallbackModel : String := "gpt-4.1-nano"

end JsxAudit.Config
