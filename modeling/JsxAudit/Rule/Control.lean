import JsxAudit.Rule.Basic
import JsxAudit.Text.Digit

/-!
Rules about controls: buttons state their type, no element pushes itself forward in the order of
focus, and what reacts to clicks can be reached by keyboard.
-/

namespace JsxAudit.Rule

open Source Audit Syntax

/-! ### Types of buttons -/

/-- A component whose name says that it may render a button. -/
def isButtonComponent (tag : String) : Bool :=
  tag.toList.head?.any Text.isUppercase && Text.contains "button" (Text.lower tag)

def checkButtonType (custom : Bool) (e : Element) : Option Violation :=
  if e.hasAttribute "type" then none
  else if e.tag = "button" then
    some (violationAt "button-type" e
      ("Native <button> elements should have an explicit \"type\" attribute to avoid unexpected " ++
        "form submissions.")
      (some ⟨.insertAttr, .literal "button", some "type"⟩) (some "<button>"))
  else if custom && isButtonComponent e.tag then
    some (violationAt "button-type" e
      ("Custom component " ++ bareTag e.tag ++ " may render a <button> without an explicit " ++
        "\"type\" attribute. Consider passing type=\"button\".")
      none (some (bareTag e.tag)))
  else none

def buttonType : Rule where
  id := "button-type"
  type := .deterministic
  description := "Buttons must have an explicit type"
  scan settings f :=
    f.elements.filterMap (checkButtonType (settings.option "scanCustomComponents" false))

/-! ### Order of focus -/

/-- The whole number that an attribute is set to. -/
def integerValue? (attr : Attribute) : Option Int :=
  match attr.expression? with
  | some expression =>
    let inner := expression.unwrap
    if inner.kind = .number then Text.readInteger? (attr.file.nodeText inner) else none
  | none => attr.stringValue?.bind Text.readInteger?

def checkTabIndex (e : Element) : Option Violation := do
  let attr ← e.attribute? "tabIndex"
  let value ← integerValue? attr
  if 0 < value then
    let (line, column) := e.file.nodePosition attr.node
    return Violation.cut
      { rule := "no-positive-tabindex", filePath := e.file.path, line, column, element := e.tag
        message := "Avoid using positive tabIndex value (" ++ toString value ++
          "). Use tabIndex=\x7b0\x7d or tabIndex=\x7b-1\x7d instead."
        fix := some ⟨.replaceAttr, .literal "0", some "tabIndex"⟩
        anchor := some e.anchor, tag := some e.tag }
  else none

def positiveTabIndex : Rule where
  id := "no-positive-tabindex"
  type := .deterministic
  description := "Avoid positive tabIndex values"
  scan _ f := f.elements.filterMap checkTabIndex

/-! ### Clicks -/

def divInteractive : Rule where
  id := "no-div-interactive"
  type := .detect
  description := "Clickable <div>/<span> should be a <button> or have role and tabIndex"
  scan _ f :=
    ((f.elementsTagged ["div", "span"]).filter fun e =>
      e.hasAttribute "onClick" && !(e.hasAttribute "role" && e.hasAttribute "tabIndex")).map
        fun e => violationAt "no-div-interactive" e
          ("Interactive " ++ bareTag e.tag ++ " should be a <button> or have role and tabIndex")
          none (some (bareTag e.tag))

end JsxAudit.Rule
