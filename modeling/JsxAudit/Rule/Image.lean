import JsxAudit.Rule.Basic
import JsxAudit.Label.AltText

/-!
Rules about images: every image needs a meaningful alternative text, and an image that fills its
parent needs its sizes.
-/

namespace JsxAudit.Rule

open Source Audit Label Syntax

/-! ### Alternative texts -/

/-- The alternative text and whether it is the source of an expression. A bare attribute and braces
around nothing read as an empty text. -/
def altValue (e : Element) : Option String × Bool :=
  match e.attribute? "alt" with
  | none => (none, false)
  | some attr =>
    if attr.isBare then (some "", false)
    else match attr.stringValue? with
      | some text => (some text, false)
      | none =>
        match attr.expressionText? with
        | some source => (some source, true)
        | none => (some "", false)

/-- Where the image comes from: a literal, or the source of an expression. -/
def sourceText? (e : Element) : Option String :=
  (e.attribute? "src").bind fun attr => attr.stringValue?.or attr.expressionText?

/-- Expressions that compute their value. -/
def isComputed (k : Kind) : Bool :=
  k = .call || k = .ternary || k = .templateString

/-- Texts in a list's callback, and computed ones, are taken as intended. -/
def isTrustedAlt (e : Element) : Bool :=
  (LoopVariable.enclosingCallback? e.file e.site.above).isSome ||
    match (e.attribute? "alt").bind (·.expression?) with
    | none => false
    | some expression =>
      let inner := expression.unwrap
      isComputed inner.kind || !((⟨inner, []⟩ : Site).descendantsWhere isComputed).isEmpty

/-- What is wrong with the alternative text of an image. -/
def checkAlt (settings : RuleSettings) (e : Element) : Option Violation :=
  let (value, isExpression) := altValue e
  let text := FixValue.deferredOf "img-alt" [("src", sourceText? e)]
  let report (message : String) (fix : Option Fix) := violationAt "img-alt" e message fix none
  match classify value isExpression with
  | .missing => some (report "Image is missing alt text" (some ⟨.insertAttr, text, some "alt"⟩))
  | .meaningless =>
    some (report ("Image has meaningless alt text: \"" ++ value.getD "" ++ "\"")
      (some ⟨.replaceAttr, text, some "alt"⟩))
  | .decorative =>
    if settings.option "fillAlt" true then
      some (report "Image has empty alt text" (some ⟨.replaceAttr, text, some "alt"⟩))
    else none
  | .dynamic =>
    if isTrustedAlt e then none
    else some (report ("Image alt is a dynamic value that cannot be verified: \x7b" ++
      value.getD "" ++ "\x7d") none)
  | .valid => none

def imgAlt : Rule where
  id := "img-alt"
  type := .ai
  description := "Images must have meaningful alt text"
  scan settings f :=
    (f.elementsTagged (tagsWith "img" (f.localDefault? "next/image" "Image"))).filterMap
      (checkAlt settings)

/-! ### Sizes -/

/-- The image is told to fill its parent. -/
def isFill (e : Element) : Bool :=
  (e.attribute? "fill").any fun attr => attr.isBare || attr.expressionText? = some "true"

def imageSizes : Rule where
  id := "next-image-sizes"
  type := .detect
  description := "<Image fill> should declare sizes"
  scan _ f :=
    match f.localDefault? "next/image" "Image" with
    | none => []
    | some image =>
      ((f.elementsTagged [image]).filter fun e => isFill e && !e.hasAttribute "sizes").map fun e =>
        violationAt "next-image-sizes" e
          "<Image fill> without sizes prop loads full-width image on all viewports" none
          (some (bareTag image))

end JsxAudit.Rule
