import JsxAudit.Rule.Image
import JsxAudit.Rule.AccessibleName
import JsxAudit.Rule.Link
import JsxAudit.Rule.Page
import JsxAudit.Rule.Control
import JsxAudit.Rule.Content

/-!
All rules, in the order in which they report.
-/

namespace JsxAudit.Rule

def all : List Rule :=
  [imgAlt, buttonLabel, linkLabel, inputLabel, metadataTitle, htmlLang, emojiAlt, linkNoopener,
    buttonType, positiveTabIndex, nestedAnchor, skipNav, imageSizes, headingOrder, divInteractive]

/-- The rule of an id. -/
def find? (id : String) : Option Rule :=
  all.find? (·.id = id)

/-- Rules whose texts may come from a service. -/
def isAi (id : String) : Bool :=
  (find? id).any (·.type = .ai)

end JsxAudit.Rule
