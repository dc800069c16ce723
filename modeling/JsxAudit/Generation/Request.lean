import JsxAudit.Data.Fault

/-!
What a service is asked for, and how the asking ends.

A refusal is a failure that the asker can live with. A fault is not: it ends the run.
-/

namespace JsxAudit.Generation

/-- Tokens that a service has counted. -/
structure TokenUsage where
  input : Int := 0
  output : Int := 0
  deriving DecidableEq, Repr

def TokenUsage.total (u : TokenUsage) : Int :=
  u.input + u.output

def TokenUsage.add (u v : TokenUsage) : TokenUsage :=
  ⟨u.input + v.input, u.output + v.output⟩

/-- A text to be written: instructions, a prompt, and possibly an image to look at. -/
structure TextRequest where
  system : String
  prompt : String
  image : Option (List UInt8) := none
  deriving DecidableEq, Repr

/-- A text that a service has written, and the tokens that it took. -/
structure TextAnswer where
  text : String
  usage : TokenUsage := {}
  deriving DecidableEq, Repr

inductive Failure where
  | refused (message : String)
  | fault (f : Data.Fault)
  deriving DecidableEq, Repr

end JsxAudit.Generation
