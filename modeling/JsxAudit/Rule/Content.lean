import JsxAudit.Rule.Basic
import JsxAudit.Label.Emoji

/-!
Rules about content: emoji have a spoken name, and headings skip no level.
-/

namespace JsxAudit.Rule

open Source Audit Label Syntax

/-! ### Emoji -/

/-- The node above a text is a span that already names it. -/
def isLabelledSpan (f : SourceFile) (text : Site) : Bool :=
  match text.above with
  | [] => false
  | parent :: above =>
    let span : Element := ⟨f, parent, above⟩
    parent.kind = .jsxElement && span.tag = "span" && literal? span "role" = some "img" &&
      span.hasAttribute "aria-label"

/-- The violation of one emoji of a text that starts at byte `start`. -/
def emojiViolation (f : SourceFile) (start : Nat) (text : String) (m : EmojiMatch) : Violation :=
  let offset := start + (Text.utf8 (Text.takeChars m.start text)).length
  let (line, column) := f.position offset
  let name := emojiName m.emoji
  Violation.cut
    { rule := "emoji-alt", filePath := f.path, line, column, element := m.emoji
      message := "Emoji \"" ++ m.emoji ++ "\" is missing accessible labeling. Wrap it in " ++
        "<span role=\"img\" aria-label=\"" ++ name ++ "\">" ++ m.emoji ++
        "</span> so screen readers can announce its meaning."
      fix := some ⟨.wrapElement, .literal name, none⟩
      anchor := some offset }

def emojiAlt : Rule where
  id := "emoji-alt"
  type := .deterministic
  description := "Emoji must be wrapped with role=img and aria-label"
  scan _ f :=
    ((f.site.descendantsWhere (· = .jsxText)).filter (!isLabelledSpan f ·)).flatMap fun s =>
      let text := f.nodeText s.node
      (findEmoji text).map (emojiViolation f s.node.start text)

/-! ### Headings -/

/-- The level of a heading element. -/
def levelOf (e : Element) : Nat :=
  (PageContext.headingLevel? e.tag).getD 0

/-- What is wrong between a heading and the next one. -/
def checkStep (previous current : Element) : Option Violation :=
  if levelOf previous + 1 < levelOf current then
    some (violationAt "heading-order" current
      ("Heading level skipped: expected h" ++ toString (levelOf previous + 1) ++ " but found " ++
        current.tag) none (some (bareTag current.tag)))
  else none

def headingTags : List String :=
  ["h1", "h2", "h3", "h4", "h5", "h6"]

def headingOrder : Rule where
  id := "heading-order"
  type := .detect
  description := "Heading levels should only increase by one"
  scan _ f :=
    let headings := f.elementsTagged headingTags
    (headings.zip (headings.drop 1)).filterMap fun (previous, current) =>
      checkStep previous current

end JsxAudit.Rule
