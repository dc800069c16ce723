import JsxAudit.Repair.Locate
import JsxAudit.Rule.Control
import JsxAudit.Rule.Link
import JsxAudit.Rule.Page
import JsxAudit.Text.Utf8

/-!
The edits: for each kind of fix, the splices that carry it out on a file. No splices means that the
place of the fix was not found, or that nothing is left to do.

A splice replaces a byte range of a text. Splices of one text are carried out from the last to the
first, so that none moves the range of another. The result must again be the bytes of a text.
-/

namespace JsxAudit.Repair

open Source Audit Rule

/-! ### Splices -/

/-- The bytes from `start` up to `stop` are replaced by `text`. -/
structure Splice where
  start : Nat
  stop : Nat
  text : String
  deriving DecidableEq, Repr

namespace Splice

/-- The bytes after one replacement. -/
def replaceIn (bytes : List UInt8) (s : Splice) : List UInt8 :=
  bytes.take s.start ++ Text.utf8 s.text ++ bytes.drop s.stop

/-- The splices from the highest start down; of equal starts the earlier one comes first. -/
def descending (splices : List Splice) : List Splice :=
  splices.mergeSort fun a b => b.start ≤ a.start

/-- The bytes after all replacements. -/
def bytesAfter (bytes : List UInt8) (splices : List Splice) : List UInt8 :=
  (descending splices).foldl replaceIn bytes

/-- The text after all replacements, if its bytes are those of a text. -/
def spliced? (bytes : List UInt8) (splices : List Splice) : Option String :=
  Text.decode? (bytesAfter bytes splices)

/-! ### Replacing all at once -/

/-- The bytes from offset `position` on, with the replacements of ascending splices in place of
their ranges. -/
def weave (bytes : List UInt8) (position : Nat) : List Splice → List UInt8
  | [] => bytes.drop position
  | s :: rest =>
    Text.slice bytes position s.start ++ Text.utf8 s.text ++ weave bytes s.stop rest

/-- Ascending splices with ranges inside the text that do not overlap. -/
def Disjoint (length position : Nat) : List Splice → Prop
  | [] => position ≤ length
  | s :: rest => position ≤ s.start ∧ s.start ≤ s.stop ∧ Disjoint length s.stop rest

end Splice

/-! ### Finding the splices of a fix -/

/-- Finds the splices that write a text as the fix of a violation. -/
abbrev Edit := SourceFile → Violation → String → List Splice

/-- A text without double quotes of its own. -/
def escapeQuotes (s : String) : String :=
  String.ofList (s.toList.flatMap fun c => if c = '"' then "&quot;".toList else [c])

/-- An attribute: a quoted text, or an expression if the value begins with a brace. -/
def attributeText (name value : String) : String :=
  if value.toList.head? = some '{' then name ++ "=" ++ value
  else name ++ "=\"" ++ escapeQuotes value ++ "\""

/-! ### Attributes -/

/-- The attribute behind the tag name, unless the element has it. -/
def insertAttr : Edit := fun f v value =>
  match v.fix.bind (·.attr), element? f v with
  | some name, some e =>
    match e.opening.child? .name with
    | some tag =>
      if e.hasAttribute name then [] else [⟨tag.stop, tag.stop, " " ++ attributeText name value⟩]
    | none => []
  | _, _ => []

/-- The attribute in place of the one that the element has. -/
def replaceAttr : Edit := fun f v value =>
  match v.fix.bind (·.attr), element? f v with
  | some name, some e =>
    match e.attribute? name with
    | some attr => [⟨attr.node.start, attr.node.stop, attributeText attr.name value⟩]
    | none => insertAttr f v value
  | _, _ => []

/-- The value in place of a positive number. -/
def resetTabIndex : Edit := fun f v value =>
  match (locate? f v ((expectedTag? v).or (some v.element))).bind (·.attribute? "tabIndex") with
  | none => []
  | some attr =>
    if (integerValue? attr).any (0 < ·) then
      match attr.expression?, attr.valueNode? with
      | some expression, _ => [⟨expression.start, expression.stop, value⟩]
      | none, some node => [⟨node.start, node.stop, "\x7b" ++ value ++ "\x7d"⟩]
      | none, none => []
    else []

/-! ### Metadata -/

/-- A text as the inside of a string between double quotes. -/
def escapeString (s : String) : String :=
  String.ofList (s.toList.flatMap fun c => if c = '\\' || c = '"' then ['\\', c] else [c])

/-- A property set to a text. -/
def propertyText (name value : String) : String :=
  name ++ ": \"" ++ escapeString value ++ "\""

/-- The property in the exported metadata, or metadata that has nothing else. -/
def insertMetadata : Edit := fun f v value =>
  match v.fix.bind (·.attr) with
  | none => []
  | some name =>
    let property := propertyText name value
    match metadataObject? f with
    | some metadata =>
      let isSet := metadata.namedChildren.any fun part =>
        part.kind = .pair && (part.child? .key).any fun key =>
          Text.trimMatching isQuote (f.nodeText key) = name
      let start := metadata.start + 1
      if isSet then []
      else if metadata.namedChildren.isEmpty then
        [⟨start, metadata.stop - 1, " " ++ property ++ " "⟩]
      else
        let gap := if (f.nodeText metadata).toList.contains '\n' then "\n  " else " "
        [⟨start, start, gap ++ property ++ ","⟩]
    | none =>
      let declaration := "export const metadata = \x7b " ++ property ++ " \x7d;"
      match f.lastImport? with
      | some last => [⟨last.stop, last.stop, "\n\n" ++ declaration⟩]
      | none => [⟨0, 0, declaration ++ "\n\n"⟩]

/-! ### Lines -/

/-- The text on a line of its own before the line of the violation, indented as that one is. -/
def insertLine : Edit := fun f v value =>
  match lineSpan? f v.line with
  | none => []
  | some (start, stop) =>
    let indent := (f.textBetween start stop).toList.takeWhile Text.isBlank
    [⟨start, start, String.ofList indent ++ value ++ "\n"⟩]

def removeLine : Edit := fun f v _ =>
  match lineSpan? f v.line with
  | none => []
  | some (start, stop) => [⟨start, stop, ""⟩]

/-! ### Emoji -/

/-- Where the flagged text stands: at the anchor, or somewhere on the line. -/
def placeOf? (f : SourceFile) (v : Violation) : Option Nat :=
  let part := Text.utf8 v.element
  let atAnchor := v.anchor.filter fun a => Text.slice f.bytes a (a + part.length) = part
  atAnchor.or ((lineSpan? f v.line).bind fun (start, stop) =>
    findWithin? f.bytes part start stop)

/-- The flagged text inside a span that names it. -/
def wrapEmoji : Edit := fun f v value =>
  match placeOf? f v with
  | none => []
  | some start =>
    [⟨start, start + (Text.utf8 v.element).length,
      "<span role=\"img\" aria-label=\"" ++ escapeQuotes value ++ "\">" ++ v.element ++ "</span>"⟩]

/-! ### Nested anchors -/

/-- Sources of the attributes of an anchor that move to the link around it. -/
def hoisted (f : SourceFile) (link anchor : Element) : List String :=
  (anchor.attributes.filter fun attr => attr.name ≠ "href" && !link.hasAttribute attr.name).map
    fun attr => f.nodeText attr.node

/-- What stands between the tags of an anchor. -/
def innerText (f : SourceFile) (anchor : Element) : String :=
  if anchor.isSelfClosing then ""
  else
    let stop := ((anchor.node.child? .closeTag).map (·.start)).getD anchor.node.stop
    f.textBetween anchor.opening.stop stop

/-- The attributes of the nested anchor on the link, and its content in its place. -/
def unwrapAnchor : Edit := fun f v _ =>
  match element? f v with
  | none => []
  | some link =>
    match nestedAnchor? link, link.opening.child? .name with
    | some anchor, some tag =>
      let moved := hoisted f link anchor
      let attributes : List Splice :=
        if moved.isEmpty then [] else [⟨tag.stop, tag.stop, " " ++ " ".intercalate moved⟩]
      attributes ++ [⟨anchor.node.start, anchor.node.stop, innerText f anchor⟩]
    | _, _ => []

/-! ### Selection -/

/-- The edit for a rule that has its own, else the one for the kind of fix. -/
def editFor (rule : String) (type : FixType) : Edit :=
  if rule = "next-link-no-nested-a" then unwrapAnchor
  else if rule = "emoji-alt" then wrapEmoji
  else if rule = "no-positive-tabindex" then resetTabIndex
  else match type with
    | .insertAttr => insertAttr
    | .replaceAttr => replaceAttr
    | .insertMetadata => insertMetadata
    | .insertElement => insertLine
    | .removeElement => removeLine
    | .wrapElement => wrapEmoji

end JsxAudit.Repair
