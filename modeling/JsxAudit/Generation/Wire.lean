import JsxAudit.Generation.Image
import JsxAudit.Generation.Request
import JsxAudit.Http.Exchange
import JsxAudit.Text.Base64
import JsxAudit.Text.Path

/-!
The formats in which services are asked, and in which they answer.

There are four of them. In each, the parts of an answer that are missing, null or empty have a
substitute, while a part that is not what it should be is a fault.
-/

namespace JsxAudit.Generation

open Data Http

inductive Wire where
  /-- Chat completions. -/
  | completions
  /-- Messages made of content blocks. -/
  | messages
  /-- Candidates made of content parts. -/
  | candidates
  /-- A chat with a service of one's own. -/
  | chat
  deriving DecidableEq, Repr

/-- A model at an address, with the key to it. -/
structure Endpoint where
  wire : Wire
  model : String
  key : Option String := none
  address : Option String := none
  deriving DecidableEq, Repr

/-- Most tokens that an answer may have. -/
def maxTokens : Nat := 300

/-! ### Asking -/

def Wire.defaultAddress : Wire → String
  | .completions => "https://api.openai.com/v1"
  | .messages => "https://api.anthropic.com/v1/messages"
  | .candidates => "https://generativelanguage.googleapis.com/v1beta"
  | .chat => "http://localhost:11434"

/-- A text without the slashes at its end. -/
def withoutSlashes (s : String) : String :=
  String.ofList (s.toList.reverse.dropWhile (· == '/')).reverse

/-- The address given, or the usual one. -/
def Endpoint.base (e : Endpoint) : String :=
  (e.address.filter (· != "")).getD e.wire.defaultAddress

/-- Where a request goes. -/
def Endpoint.url (e : Endpoint) : String :=
  match e.wire with
  | .completions => withoutSlashes e.base ++ "/chat/completions"
  | .messages => e.base
  | .candidates => withoutSlashes e.base ++ "/models/" ++ e.model ++ ":generateContent"
  | .chat => withoutSlashes e.base ++ "/api/chat"

/-- The headers that carry the key. -/
def Endpoint.headers (e : Endpoint) : List (String × String) :=
  let key := e.key.getD ""
  match e.wire with
  | .completions => [("authorization", "Bearer " ++ e.key.getD "None")]
  | .messages => [("x-api-key", key), ("anthropic-version", "2023-06-01")]
  | .candidates => [("x-goog-api-key", key)]
  | .chat => []

/-- An image in letters. -/
def imageText (image : List UInt8) : Value :=
  .str (Text.Base64.encode image)

/-- A message of one side of a conversation. -/
def message (role : String) (content : Value) : Value :=
  .table [("role", .str role), ("content", content)]

/-- A block of text among others. -/
def textBlock (s : String) : Value :=
  .table [("type", .str "text"), ("text", .str s)]

/-- A request written in a format. -/
def Wire.body (w : Wire) (model : String) (r : TextRequest) : Value :=
  match w with
  | .completions =>
    let content := match r.image with
      | some image => Value.list
        [.table [("type", .str "image_url"), ("image_url", .table [("url",
            .str ("data:" ++ mediaType image ++ ";base64," ++ Text.Base64.encode image))])],
          textBlock r.prompt]
      | none => .str r.prompt
    .table [("model", .str model), ("max_tokens", .int maxTokens),
      ("messages", .list [message "system" (.str r.system), message "user" content])]
  | .messages =>
    let images := r.image.toList.map fun image => Value.table
      [("type", .str "image"), ("source", .table [("type", .str "base64"),
        ("media_type", .str (mediaType image)), ("data", imageText image)])]
    .table [("model", .str model), ("max_tokens", .int maxTokens), ("system", .str r.system),
      ("messages", .list [message "user" (.list (images ++ [textBlock r.prompt]))])]
  | .candidates =>
    let images := r.image.toList.map fun image => Value.table
      [("inline_data", .table [("mime_type", .str (mediaType image)), ("data", imageText image)])]
    let parts (ps : List Value) : String × Value := ("parts", .list ps)
    .table [("systemInstruction", .table [parts [.table [("text", .str r.system)]]]),
      ("contents", .list [.table [("role", .str "user"),
        parts (images ++ [.table [("text", .str r.prompt)]])]]),
      ("generationConfig", .table [("maxOutputTokens", .int maxTokens)])]
  | .chat =>
    let images := r.image.toList.map fun image => ("images", Value.list [imageText image])
    .table [("model", .str model), ("stream", .bool false),
      ("messages", .list [message "system" (.str r.system),
        .table ([("role", .str "user"), ("content", .str r.prompt)] ++ images)])]

def Endpoint.request (e : Endpoint) (net : Network) (r : TextRequest) : Http.Request :=
  { method := .post, url := net.normal e.url, headers := e.headers
    body := some (e.wire.body e.model r) }

/-! ### Parts of an answer -/

/-- A field of what must have fields. -/
def fieldOf (name : String) : Value → Except Failure (Option Value)
  | .table fields => .ok (Keyed.get? fields name)
  | _ => .error (.fault .noFields)

/-- A field that is there and not empty, or a substitute. -/
def fieldOr (name : String) (substitute : Value) (v : Value) : Except Failure Value := do
  return ((← fieldOf name v).filter Value.isTruthy).getD substitute

/-- The members of what must have members. -/
def membersOf : Value → Except Failure (List Value)
  | .list items => .ok items
  | .str s => .ok (s.toList.map fun c => .str (String.singleton c))
  | .table fields => .ok (fields.map fun (name, _) => .str name)
  | _ => .error (.fault .wrongType)

/-- The first of what must have members in a row, and has one. -/
def firstOf : Value → Except Failure Value
  | .list (v :: _) => .ok v
  | .str s => .ok (.str (String.ofList (s.toList.take 1)))
  | .table _ => .error (.fault .missingName)
  | _ => .error (.fault .wrongType)

/-- What must be a text. -/
def textOf : Value → Except Failure String
  | .str s => .ok s
  | _ => .error (.fault .wrongType)

/-- A number of tokens. -/
def tokensOf (name : String) (v : Value) : Except Failure Int := do
  match ((← fieldOf name v).getD (.int 0)).wholeNumber with
  | .ok n => return n
  | .error f => throw (.fault f)

/-- The tokens under two names. -/
def usageOf (input output : String) (v : Value) : Except Failure TokenUsage := do
  let i ← tokensOf input v
  let o ← tokensOf output v
  return ⟨i, o⟩

/-! ### Reading an answer -/

def noFields : Value := .table []

/-- The first of a list that must not be empty. -/
def firstGiven (name refusal : String) (data : Value) : Except Failure Value := do
  let found ← fieldOr name (.list []) data
  if found.isTruthy then firstOf found else throw (.refused refusal)

/-- The texts of some blocks put together; a block without a text is empty. -/
def joinedTexts (blocks : List Value) : Except Failure String := do
  let texts ← blocks.mapM fun b => return (← fieldOf "text" b).getD (.str "")
  return String.join (← texts.mapM textOf)

/-- The answer that a document writes in a format. -/
def Wire.read (w : Wire) (data : Value) : Except Failure TextAnswer := do
  match w with
  | .completions =>
    let choice ← firstGiven "choices" "No choices in completion response" data
    let content ← fieldOr "content" (.str "") (← fieldOr "message" noFields choice)
    let usage ← fieldOr "usage" noFields data
    return ⟨content.plain, ← usageOf "prompt_tokens" "completion_tokens" usage⟩
  | .messages =>
    let blocks ← membersOf (← fieldOr "content" (.list []) data)
    let texts ← blocks.filterM fun b => return (← fieldOf "type" b).any fun
      | .str s => s = "text"
      | _ => false
    let text ← joinedTexts texts
    let usage ← fieldOr "usage" noFields data
    return ⟨text, ← usageOf "input_tokens" "output_tokens" usage⟩
  | .candidates =>
    let candidate ← firstGiven "candidates" "No candidates in generateContent response" data
    let content ← fieldOr "content" noFields candidate
    let parts ← membersOf (← fieldOr "parts" (.list []) content)
    let text ← joinedTexts parts
    let usage ← fieldOr "usageMetadata" noFields data
    return ⟨text, ← usageOf "promptTokenCount" "candidatesTokenCount" usage⟩
  | .chat =>
    let content ← fieldOr "content" (.str "") (← fieldOr "message" noFields data)
    return ⟨content.plain, ← usageOf "prompt_eval_count" "eval_count" data⟩

/-- What is said of a body that is not JSON. -/
def notJson : String := "Expecting value: line 1 column 1 (char 0)"

/-- The table that a reply carries. -/
def tableOf (net : Network) : Reply → Except Failure Value
  | .failed message => .error (.refused ("Generation request failed: " ++ message))
  | .response status _ chunks =>
    if isSuccess status then
      match net.document? chunks.flatten with
      | none => .error (.refused ("Generation request failed: " ++ notJson))
      | some (.table fields) => .ok (.table fields)
      | some _ => .error (.refused "Unexpected generation response shape")
    else .error (.refused ("Generation request failed with status " ++ toString status))

/-- One attempt to have a text written. -/
def Endpoint.ask (e : Endpoint) (net : Network) (r : TextRequest) (t : Trace) :
    Except Failure TextAnswer × Trace :=
  let (reply, t) := net.send (e.request net r) t
  (tableOf net reply >>= e.wire.read, t)

end JsxAudit.Generation
