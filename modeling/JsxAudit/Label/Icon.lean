import JsxAudit.Label.IconTable
import JsxAudit.Source.Element
import JsxAudit.Text.Casing

/-!
Labels for controls that show only an icon, and which tags are icons.
-/

namespace JsxAudit.Label

open Source

/-! ### Locales -/

/-- The language of a locale: what stands before the first hyphen or underscore, in lower case. -/
def baseLocale (locale : String) : String :=
  Text.lower (String.ofList (locale.toList.takeWhile fun c => c != '-' && c != '_'))

/-! ### Labels -/

/-- What a control with the icon does, in the language of the locale or else in English. -/
def curatedLabel? (icon locale : String) : Option String :=
  ((localizedActionLabels.lookup (baseLocale locale)).bind (·.lookup icon)).or
    (actionLabels.lookup icon)

/-- A space where a small letter meets a capital one. -/
def splitCamel : List Char → List Char
  | [] => []
  | [c] => [c]
  | a :: b :: rest =>
    if a.isLower && b.isUpper then a :: ' ' :: splitCamel (b :: rest)
    else a :: splitCamel (b :: rest)

/-- A text without an ending, if it has it. -/
def withoutSuffix (suffix s : String) : String :=
  if Text.endsWith suffix s then String.ofList (s.toList.take (s.length - suffix.length)) else s

/-- The words of a component's name as a phrase. -/
def humanize (icon : String) : String :=
  Text.capitalize (Text.lower (String.ofList (splitCamel (withoutSuffix "Icon" icon).toList)))

/-- The label of an icon: what it does, what it shows, or the words of its name. -/
def iconLabel (icon locale : String) : String :=
  (curatedLabel? icon locale).getD ((plainLabels.lookup icon).getD (humanize icon))

/-- The name of a kind of control in the language of the locale or else in English. -/
def controlLabel? (term locale : String) : Option String := do
  let english ← controlLabels.lookup "en"
  let fallback ← english.lookup term
  let labels := (controlLabels.lookup (baseLocale locale)).getD english
  return (labels.lookup term).getD fallback

/-! ### Which tags are icons -/

/-- Decides which tags look like icons. -/
structure IconClassifier where
  suffixes : List String := ["Icon"]
  svgTags : List String := ["svg"]
  svgParts : List String :=
    ["svg", "path", "rect", "circle", "g", "line", "polyline", "polygon", "use"]
  plainComponents : List String := ["Image", "Link", "Svg"]
  componentsAreIcons : Bool := true

namespace IconClassifier

/-- The tag begins with a capital and has no dot. -/
def isPascalCase (tag : String) : Bool :=
  tag.toList.head?.any Text.isUppercase && !tag.toList.contains '.'

variable (c : IconClassifier)

def hasIconSuffix (tag : String) : Bool :=
  c.suffixes.any (Text.endsWith · tag)

/-- A component that counts as an icon although its name does not say so. -/
def isIconComponent (tag : String) : Bool :=
  c.componentsAreIcons && isPascalCase tag && !c.plainComponents.contains tag

def isIconTag (tag : String) : Bool :=
  c.hasIconSuffix tag || c.svgTags.contains tag || c.isIconComponent tag

/-- The first icon inside the element; bare drawings have no name. -/
def iconName? (e : Element) : Option String :=
  (e.descendantElements.map (·.tag)).find? fun tag =>
    !c.svgParts.contains tag && (c.hasIconSuffix tag || c.isIconComponent tag)

end IconClassifier

end JsxAudit.Label
