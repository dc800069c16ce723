import JsxAudit.Generation.Wire
import Mathlib.Data.List.Forall2

/-!
Reading the parts of an answer, one by one.

`Ends` is how a reading ends: with a result, in a refusal, or in a fault. For each part that is
read there is a relation to what it may be, another one for what it may not be, and a lemma for each
of the two: the fields of a table, its numbers of tokens, the first of its choices, and the texts of
its blocks. Faults pass through whatever comes after them, and steps that decide, because they end
with a result or in a fault, do not keep later ones from faulting.
-/

namespace JsxAudit.Generation

open Data Http

variable {α : Type} {x : Except Failure α} {gives : α → Prop} {refused misshapen : Prop}
  {fields : Fields} {name : String} {v : Value} {blocks : List Value}

/-- It ends in a fault. -/
abbrev Faults (x : Except Failure α) : Prop :=
  ∃ fault, x = .error (.fault fault)

/-- What gives which results, and when it ends in a refusal and when in a fault. -/
structure Ends (x : Except Failure α) (gives : α → Prop) (refused misshapen : Prop) : Prop where
  gives_iff : ∀ a, x = .ok a ↔ gives a
  refused_iff : (∃ message, x = .error (.refused message)) ↔ refused
  faults_iff : Faults x ↔ misshapen

/-- It is enough that each case ends as it should, and that there are no other cases. -/
theorem ends_of_cases (result : ∀ a, gives a → x = .ok a)
    (refusal : refused → ∃ message, x = .error (.refused message))
    (fault : misshapen → Faults x)
    (total : (∃ a, gives a) ∨ refused ∨ misshapen) : Ends x gives refused misshapen := by
  refine ⟨fun a => ⟨fun eq => ?_, result a⟩, ⟨?_, refusal⟩, ⟨?_, fault⟩⟩
  · obtain ⟨b, given⟩ | no | bad := total
    · cases eq.symm.trans (result b given)
      exact given
    · obtain ⟨_, refused⟩ := refusal no
      cases eq.symm.trans refused
    · obtain ⟨_, faulty⟩ := fault bad
      cases eq.symm.trans faulty
  · rintro ⟨message, eq⟩
    obtain ⟨b, given⟩ | no | bad := total
    · cases eq.symm.trans (result b given)
    · exact no
    · obtain ⟨_, faulty⟩ := fault bad
      cases eq.symm.trans faulty
  · rintro ⟨fault, eq⟩
    obtain ⟨b, given⟩ | no | bad := total
    · cases eq.symm.trans (result b given)
    · obtain ⟨_, refused⟩ := refusal no
      cases eq.symm.trans refused
    · exact bad

/-! ### Parts of a table -/

/-- What a table holds under a name, or the substitute if that is missing or empty. -/
def held (fields : Fields) (name : String) (substitute : Value) : Value :=
  ((Keyed.get? fields name).filter Value.isTruthy).getD substitute

/-- A value without fields. -/
def NoTable (v : Value) : Prop :=
  ∀ fields, v ≠ .table fields

theorem table_or_not (v : Value) : (∃ fields, v = .table fields) ∨ NoTable v := by
  by_cases h : ∃ fields, v = .table fields
  · exact .inl h
  · exact .inr fun fields eq => h ⟨fields, eq⟩

theorem fieldOr_table (fields : Fields) (name : String) (substitute : Value) :
    fieldOr name substitute (.table fields) = .ok (held fields name substitute) := rfl

/-- The number of tokens that a table has under a name: none if the name is missing. -/
def Counts (fields : Fields) (name : String) (n : Int) : Prop :=
  ((Keyed.get? fields name).getD (.int 0)).wholeNumber = .ok n

theorem tokensOf_table (fields : Fields) (name : String) : tokensOf name (.table fields) =
    ((Keyed.get? fields name).getD (.int 0)).wholeNumber.mapError Failure.fault := by
  unfold tokensOf fieldOf
  dsimp only [bind, Except.bind]
  cases ((Keyed.get? fields name).getD (.int 0)).wholeNumber <;> rfl

theorem tokensOf_of_counts {n : Int} (h : Counts fields name n) :
    tokensOf name (.table fields) = .ok n := by
  rw [tokensOf_table, h]
  rfl

/-- The tokens that a table has under two names. -/
structure CountsBoth (fields : Fields) (input output : String) (usage : TokenUsage) : Prop where
  input : Counts fields input usage.input
  output : Counts fields output usage.output

variable {input output : String} {usage : TokenUsage}

theorem usageOf_of_counts (h : CountsBoth fields input output usage) :
    usageOf input output (.table fields) = .ok usage := by
  unfold usageOf
  rw [tokensOf_of_counts h.input, tokensOf_of_counts h.output]
  rfl

/-- The text of a block: none if it is missing. -/
inductive BlockText : Value → String → Prop
  | missing {fields : Fields} : Keyed.get? fields "text" = none → BlockText (.table fields) ""
  | given {fields : Fields} {s : String} :
      Keyed.get? fields "text" = some (.str s) → BlockText (.table fields) s

variable {β γ : Type} {step : β → Except Failure γ} {items : List β}

/-- A step ends with a result or in a fault. -/
def Decides (x : Except Failure γ) : Prop :=
  (∃ a, x = .ok a) ∨ Faults x

theorem filterM_of_ok {test : β → Except Failure Bool} (keep : β → Bool)
    (h : ∀ b ∈ items, test b = .ok (keep b)) : items.filterM test = .ok (items.filter keep) := by
  have go : ∀ (rest acc : List β), (∀ b ∈ rest, test b = .ok (keep b)) →
      rest.filterAuxM test acc = .ok ((rest.filter keep).reverse ++ acc) := by
    intro rest
    induction rest with
    | nil => exact fun acc _ => rfl
    | cons b rest ih =>
      intro acc all
      rw [List.filterAuxM, all b List.mem_cons_self]
      change rest.filterAuxM test (cond (keep b) (b :: acc) acc) = _
      rw [ih _ fun c mem => all c (List.mem_cons_of_mem b mem)]
      cases kept : keep b <;> simp [kept]
  unfold List.filterM
  rw [go items [] h]
  simp [Bind.bind, Except.bind, Pure.pure, Except.pure]

/-- What a block has for its text. -/
def rawText (b : Value) : Value :=
  (b.field? "text").getD (.str "")

theorem BlockText.raw {s : String} (h : BlockText v s) :
    fieldOf "text" v = .ok (v.field? "text") ∧ textOf (rawText v) = .ok s := by
  cases h with
  | missing none => exact ⟨rfl, by simp [rawText, Value.field?, none, textOf]⟩
  | given some => exact ⟨rfl, by simp [rawText, Value.field?, some, textOf]⟩

/-- Texts of blocks are put together. -/
theorem joinedTexts_of_texts {texts : List String} (h : List.Forall₂ BlockText blocks texts) :
    joinedTexts blocks = .ok (String.join texts) := by
  have raw : blocks.mapM (fun b => do return (← fieldOf "text" b).getD (.str "")) =
      (.ok (blocks.map rawText) : Except Failure (List Value)) := by
    induction h with
    | nil => rfl
    | cons first _ ih =>
      rw [List.mapM_cons, ih, first.raw.1]
      rfl
  have read : (blocks.map rawText).mapM textOf = .ok texts := by
    clear raw
    induction h with
    | nil => rfl
    | cons first _ ih =>
      rw [List.map_cons, List.mapM_cons, ih, first.raw.2]
      rfl
  unfold joinedTexts
  rw [raw]
  simp only [Bind.bind, Except.bind]
  rw [read]
  rfl

/-- The block says that it is one of text. -/
def isText (b : Value) : Bool :=
  (b.field? "type").any fun
    | .str s => s = "text"
    | _ => false

/-! ### Steps, one after the other -/

theorem ok_bind (a : α) (f : α → Except Failure β) : (.ok a >>= f) = f a := rfl

variable {refusal : String}

theorem firstGiven_eq (fields : Fields) (name refusal : String) :
    firstGiven name refusal (.table fields) =
      if (held fields name (.list [])).isTruthy then firstOf (held fields name (.list []))
      else .error (.refused refusal) := rfl

theorem firstGiven_of_empty (h : held fields name (.list []) = .list []) :
    firstGiven name refusal (.table fields) = .error (.refused refusal) := by
  rw [firstGiven_eq, h]
  rfl

theorem firstGiven_of_cons {more : List Value}
    (h : held fields name (.list []) = .list (v :: more)) :
    firstGiven name refusal (.table fields) = .ok v := by
  rw [firstGiven_eq, h]
  rfl

/-- An answer with the tokens that a part of a table counts. -/
def counted (data : Value) (part input output : String) (text : String) :
    Except Failure TextAnswer := do
  let usage ← fieldOr part noFields data
  return ⟨text, ← usageOf input output usage⟩

theorem counted_of_counts {data : Fields} {part text : String}
    (table : held data part noFields = .table fields)
    (counts : CountsBoth fields input output usage) :
    counted (.table data) part input output text = .ok ⟨text, usage⟩ := by
  unfold counted
  rw [fieldOr_table, table]
  simp only [Bind.bind, Except.bind]
  rw [usageOf_of_counts counts]
  rfl

end JsxAudit.Generation
