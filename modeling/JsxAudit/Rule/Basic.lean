import JsxAudit.Audit.Deferred
import JsxAudit.Source.PageContext

/-!
Rules: what they are given, what they report, and the questions that several of them ask.

A rule looks at one file and reports violations in an order of its own. It sees the settings made
for it and nothing else, and it changes nothing.
-/

namespace JsxAudit

open Source Audit Label Syntax

/-- What a rule is told besides the file. -/
structure RuleSettings where
  /-- Options by name; without a configuration every option has the rule's own default. -/
  options : Option (List (String × Bool)) := none
  locale : String := "en"
  icons : IconClassifier := {}

/-- The value of an option. -/
def RuleSettings.option (s : RuleSettings) (name : String) (default : Bool) : Bool :=
  ((s.options.getD []).lookup name).getD default

/-- One check of a file. -/
structure Rule where
  id : String
  type : RuleType
  description : String
  scan : RuleSettings → SourceFile → List Violation

namespace Rule

/-! ### Reports -/

/-- A violation at an element, which is shown by `snippet` or by its source. -/
def violationAt (rule : String) (e : Element) (message : String) (fix : Option Fix)
    (snippet : Option String) : Violation :=
  let (line, column) := e.position
  Violation.cut
    { rule, filePath := e.file.path, line, column, element := snippet.getD e.text, message, fix
      anchor := some e.anchor, tag := some e.tag }

/-- A violation of the file as a whole. -/
def fileViolation (rule : String) (f : SourceFile) (element message : String)
    (fix : Option Fix) : Violation :=
  Violation.cut
    { rule, filePath := f.path, line := 1, column := 1, element, message, fix, anchor := some 0 }

/-- The source of an empty tag of a name. -/
def bareTag (tag : String) : String :=
  "<" ++ tag ++ ">"

/-! ### Visible content -/

/-- The braces between the tags of an element, at any depth, that hold something. -/
def contentExpressions (e : Element) : List Site :=
  if e.isSelfClosing then []
  else (e.site.descendantsWhere (· = .jsxExpression)).filter fun s =>
    let inTag := match s.above with
      | [] => false
      | parent :: _ =>
        parent.kind = .jsxAttribute || parent.kind = .jsxOpening || parent.kind = .jsxSelfClosing
    !inTag && s.node.namedChildren.any (·.kind ≠ .comment)

/-- The element shows text or the value of an expression. -/
def hasVisibleContent (e : Element) : Bool :=
  e.textContent != "" || !(contentExpressions e).isEmpty

/-! ### Attributes -/

/-- The literal value of an attribute. -/
def literal? (e : Element) (name : String) : Option String :=
  (e.attribute? name).bind (·.stringValue?)

/-- Tags that a native element and the component imported for it have. -/
def tagsWith (native : String) (component : Option String) : List String :=
  native :: (component.filter (· != "")).toList

end Rule

end JsxAudit
