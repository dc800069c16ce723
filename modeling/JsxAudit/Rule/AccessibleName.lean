import JsxAudit.Rule.Basic

/-!
Rules about accessible names: buttons and links show something or carry a label, and form fields
have one.

A fixed label on a control that is repeated for the items of a list should name the item.
-/

namespace JsxAudit.Rule

open Source Audit Label

/-! ### Buttons and links -/

/-- What sets buttons and links apart for these rules. -/
structure ControlKind where
  rule : String
  term : String
  message : String
  tags : SourceFile → List String
  hasContent : Element → Bool

/-- The fix that labels a control which shows nothing. -/
def labelFix (kind : ControlKind) (settings : RuleSettings) (e : Element) : Fix :=
  { type := .insertAttr
    value := FixValue.deferredOf "icon-label"
      [("icon", settings.icons.iconName? e), ("term", some kind.term),
        ("locale", some settings.locale), ("variable", LoopVariable.find? e false)]
    attr := some "aria-label" }

/-- A fixed label on a repeated control, changed to name the item. -/
def nameItem? (rule : String) (e : Element) : Option Violation := do
  let label ← (literal? e "aria-label").filter (· != "")
  let variable' ← LoopVariable.find? e true
  let fix : Fix := ⟨.replaceAttr, .literal (LoopVariable.wrap label variable'), some "aria-label"⟩
  return violationAt rule e "Use variable in aria-label for better screen reader context"
    (some fix) none

/-- What is wrong with the name of a control. -/
def checkControl (kind : ControlKind) (settings : RuleSettings) (e : Element) :
    Option Violation :=
  if e.hasAttribute "aria-labelledby" then none
  else if e.hasAttribute "aria-label" then nameItem? kind.rule e
  else if !e.isSelfClosing && kind.hasContent e then none
  else some (violationAt kind.rule e kind.message (some (labelFix kind settings e)) none)

def scanControls (kind : ControlKind) (settings : RuleSettings) (f : SourceFile) :
    List Violation :=
  (f.elementsTagged (kind.tags f)).filterMap (checkControl kind settings)

def buttons : ControlKind where
  rule := "button-label"
  term := "Button"
  message := "Button has no accessible name"
  tags _ := ["button"]
  hasContent := hasVisibleContent

/-- The image describes itself: by an expression, or by a text that is not blank. -/
def isDescribed (image : Element) : Bool :=
  match image.attribute? "alt" with
  | none => false
  | some alt =>
    !alt.isBare && match alt.stringValue? with
      | some text => Text.trim text != ""
      | none => true

def links : ControlKind where
  rule := "link-label"
  term := "Link"
  message := "Link has no accessible name"
  tags f := tagsWith "a" (f.localDefault? "next/link" "Link")
  hasContent e :=
    hasVisibleContent e || e.descendantElements.any fun child =>
      ["img", "Image"].contains child.tag && isDescribed child

def buttonLabel : Rule where
  id := "button-label"
  type := .ai
  description := "Buttons must have an accessible name"
  scan := scanControls buttons

def linkLabel : Rule where
  id := "link-label"
  type := .ai
  description := "Links must have an accessible name"
  scan := scanControls links

/-! ### Form fields -/

/-- Types of input that need no label. -/
def unlabelledTypes : List String :=
  ["hidden", "submit", "button", "reset", "image"]

/-- The fields that the labels of a file name. -/
def labelTargets (f : SourceFile) : List String :=
  ((f.elementsTagged ["label"]).filterMap (literal? · "htmlFor")).filter (· != "")

/-- The field has a label, or is of a type that needs none. -/
def isLabelled (targets : List String) (e : Element) : Bool :=
  (literal? e "type").any (fun type => unlabelledTypes.contains (Text.lower type)) ||
    e.hasAttribute "aria-label" || e.hasAttribute "aria-labelledby" ||
    (literal? e "id").any (fun id => id != "" && targets.contains id) ||
    e.ancestors.any (·.tag = "label")

def inputLabel : Rule where
  id := "input-label"
  type := .ai
  description := "Form inputs must have an associated label"
  scan _ f :=
    let targets := labelTargets f
    ((f.elementsTagged ["input", "select", "textarea"]).filter (!isLabelled targets ·)).map
      fun e =>
        let value := FixValue.deferredOf "input-label"
          [("placeholder", literal? e "placeholder"), ("name", literal? e "name"),
            ("tag", some e.tag)]
        violationAt "input-label" e (bareTag e.tag ++ " is missing an associated label")
          (some ⟨.insertAttr, value, some "aria-label"⟩) none

end JsxAudit.Rule
