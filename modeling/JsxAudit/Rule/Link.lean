import JsxAudit.Rule.Basic

/-!
Rules about links: links to new windows give no access to their opener, and a link component holds
no second anchor.
-/

namespace JsxAudit.Rule

open Source Audit

/-! ### Opener -/

/-- What the relation of a link to a new window must say. -/
def requiredRelations : List String :=
  ["noopener", "noreferrer"]

/-- The relation with what is missing added at its end. -/
def mergeRelation (current : String) : String :=
  " ".intercalate (requiredRelations.foldl
    (fun tokens token => if tokens.contains token then tokens else tokens ++ [token])
    (Text.words current))

/-- The fix for the relation of a link to a new window. A computed relation is the author's. -/
def relationFix? (e : Element) : Option Fix :=
  match e.attribute? "rel" with
  | none => some ⟨.insertAttr, .literal "noopener noreferrer", some "rel"⟩
  | some attr => do
    let current ← attr.stringValue?
    if requiredRelations.all fun token => (Text.words current).contains token then none
    else some ⟨.replaceAttr, .literal (mergeRelation current), some "rel"⟩

def linkNoopener : Rule where
  id := "link-noopener"
  type := .deterministic
  description := "target=\"_blank\" links need rel=\"noopener noreferrer\""
  scan _ f :=
    (f.elementsTagged (tagsWith "a" (f.localDefault? "next/link" "Link"))).filterMap fun e => do
      if literal? e "target" = some "_blank" then
        let fix ← relationFix? e
        return violationAt "link-noopener" e
          ("<" ++ e.tag ++ " target=\"_blank\"> is missing rel=\"noopener noreferrer\". " ++
            "This is a security risk.") (some fix) (some e.openingText)
      else none

/-! ### Nested anchors -/

/-- The first anchor directly inside an element. -/
def nestedAnchor? (link : Element) : Option Element :=
  link.childElements.find? (·.tag = "a")

def nestedAnchor : Rule where
  id := "next-link-no-nested-a"
  type := .deterministic
  description := "next/link <Link> must not wrap an <a>"
  scan _ f :=
    match f.localDefault? "next/link" "Link" with
    | none => []
    | some link =>
      ((f.elementsTagged [link]).filter fun e => (nestedAnchor? e).isSome).map fun e =>
        violationAt "next-link-no-nested-a" e
          ("<Link> from next/link should not contain a nested <a> element. " ++
            "Since Next.js 13, <Link> renders an <a> automatically.")
          (some ⟨.removeElement, .literal "", none⟩) (some (bareTag link))

end JsxAudit.Rule
