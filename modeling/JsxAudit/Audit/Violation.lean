import JsxAudit.Data.Value
import JsxAudit.Text.Utf8

/-!
Violations of rules, and the fixes they prescribe.

The text that a fix writes is either known or deferred: a deferred value names how the text is to
be found and carries what the scan knows about the place.
-/

namespace JsxAudit.Audit

/-- Where the text of a rule's fixes comes from. -/
inductive RuleType where
  | deterministic | ai | detect
  deriving DecidableEq, Repr

def RuleType.name : RuleType → String
  | .deterministic => "deterministic"
  | .ai => "ai"
  | .detect => "detect"

/-- What is done about the violations of a rule. -/
inductive RuleLevel where
  | fix | warn | off
  deriving DecidableEq, Repr

def RuleLevel.name : RuleLevel → String
  | .fix => "fix"
  | .warn => "warn"
  | .off => "off"

def RuleLevel.ofName? : String → Option RuleLevel
  | "fix" => some .fix
  | "warn" => some .warn
  | "off" => some .off
  | _ => none

/-- The kinds of edits. -/
inductive FixType where
  | insertAttr | replaceAttr | insertElement | wrapElement | removeElement | insertMetadata
  deriving DecidableEq, Repr

def FixType.name : FixType → String
  | .insertAttr => "insert-attr"
  | .replaceAttr => "replace-attr"
  | .insertElement => "insert-element"
  | .wrapElement => "wrap-element"
  | .removeElement => "remove-element"
  | .insertMetadata => "insert-metadata"

def FixType.ofName? : String → Option FixType
  | "insert-attr" => some .insertAttr
  | "replace-attr" => some .replaceAttr
  | "insert-element" => some .insertElement
  | "wrap-element" => some .wrapElement
  | "remove-element" => some .removeElement
  | "insert-metadata" => some .insertMetadata
  | _ => none

/-- The text of a fix, or how to find it. -/
inductive FixValue where
  | literal (text : String)
  | deferred (resolver : String) (params : List (String × String))
  deriving DecidableEq, Repr

/-- An edit that removes a violation. -/
structure Fix where
  type : FixType
  value : FixValue
  attr : Option String := none
  deriving DecidableEq, Repr

def Fix.isDeferred (fix : Fix) : Bool :=
  match fix.value with
  | .literal _ => false
  | .deferred _ _ => true

/-- The fix with its text known. -/
def Fix.withText (fix : Fix) (text : String) : Fix :=
  { fix with value := .literal text }

/-- A deferred value of the parameters that are given and not empty. -/
def FixValue.deferredOf (resolver : String) (params : List (String × Option String)) : FixValue :=
  .deferred resolver (params.filterMap fun (key, value) =>
    (value.filter (· != "")).map fun text => (key, text))

/-- A defect at a place in a file. -/
structure Violation where
  rule : String
  filePath : String
  line : Nat
  column : Nat
  /-- Source of the flagged element, cut to eighty characters. -/
  element : String
  message : String
  fix : Option Fix := none
  /-- Byte offset of the flagged node. -/
  anchor : Option Nat := none
  /-- Tag of the flagged element. -/
  tag : Option String := none
  deriving DecidableEq, Repr

namespace Violation

/-- Longest source shown for an element. -/
def elementLimit : Nat := 80

/-- A violation whose element is cut to the limit. -/
def cut (v : Violation) : Violation :=
  { v with element := Text.takeChars elementLimit v.element }

/-- Path, line and column. -/
def location (v : Violation) : String :=
  v.filePath ++ ":" ++ toString v.line ++ ":" ++ toString v.column

end Violation

/-! ### As data -/

open Data

def FixValue.toValue : FixValue → Value
  | .literal text => .table [("kind", .str "literal"), ("text", .str text)]
  | .deferred resolver params =>
    .table [("kind", .str "deferred"), ("resolver", .str resolver),
      ("params", .table (params.map fun (k, v) => (k, .str v)))]

def Fix.toValue (fix : Fix) : Value :=
  .table ([("type", .str fix.type.name), ("value", fix.value.toValue)] ++
    fix.attr.toList.map fun a => ("attribute", .str a))

def Violation.toFields (v : Violation) : List (String × Value) :=
  [("rule", .str v.rule), ("filePath", .str v.filePath), ("line", .int v.line),
    ("column", .int v.column), ("element", .str v.element), ("message", .str v.message)] ++
    v.fix.toList.map fun fix => ("fix", fix.toValue)

def Violation.toValue (v : Violation) : Value :=
  .table v.toFields

end JsxAudit.Audit
