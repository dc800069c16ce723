import JsxAudit.Source.File

/-!
Elements of a source file and their attributes.

An `Element` is the site of an element node together with the file it stands in, and likewise an
`Attribute`. Questions about them are answered from the syntax tree and the text of the file.
-/

namespace JsxAudit.Source

open Syntax

def isElementKind (k : Kind) : Bool :=
  k = .jsxElement || k = .jsxSelfClosing

/-! ### Attributes -/

/-- A name on an opening tag, with or without a value. -/
structure Attribute where
  file : SourceFile
  node : Node

namespace Attribute

def name (a : Attribute) : String :=
  match a.node.namedChildren with
  | [] => ""
  | n :: _ => a.file.nodeText n

/-- The node of the value. -/
def valueNode? (a : Attribute) : Option Node :=
  (a.node.namedChildren.drop 1).head?

/-- Neither quoted text nor an expression gives it a value. -/
def isBare (a : Attribute) : Bool :=
  a.valueNode?.isNone

def isString (a : Attribute) : Bool :=
  a.valueNode?.any (·.kind = .string)

def isExpression (a : Attribute) : Bool :=
  a.valueNode?.any (·.kind = .jsxExpression)

/-- The expression between the braces of the value. -/
def expression? (a : Attribute) : Option Node := do
  let value ← a.valueNode?
  if value.kind = .jsxExpression then value.namedChildren.find? (·.kind ≠ .comment) else none

/-- The value as written: quoted, or an expression that is nothing but a string. -/
def stringValue? (a : Attribute) : Option String := do
  let value ← a.valueNode?
  if value.kind = .string then a.file.stringValue? value
  else a.file.stringValue? (← a.expression?).unwrap

/-- Source of the expression between the braces. -/
def expressionText? (a : Attribute) : Option String :=
  a.expression?.map a.file.nodeText

def line (a : Attribute) : Nat :=
  (a.file.nodePosition a.node).1

end Attribute

/-! ### Elements -/

/-- An element in its place. -/
structure Element where
  file : SourceFile
  site : Site

namespace Element

def node (e : Element) : Node :=
  e.site.node

def isSelfClosing (e : Element) : Bool :=
  e.node.kind = .jsxSelfClosing

/-- The tag that holds the attributes, which for a self-closing element is the element. -/
def opening (e : Element) : Node :=
  if e.isSelfClosing then e.node else (e.node.child? .openTag).getD e.node

/-- Name of the tag, empty for a fragment. -/
def tag (e : Element) : String :=
  ((e.opening.child? .name).map e.file.nodeText).getD ""

/-- Byte offset of the first byte. -/
def anchor (e : Element) : Nat :=
  e.node.start

def position (e : Element) : Nat × Nat :=
  e.file.nodePosition e.node

def text (e : Element) : String :=
  e.file.nodeText e.node

def openingText (e : Element) : String :=
  e.file.nodeText e.opening

def attributes (e : Element) : List Attribute :=
  (e.opening.namedChildren.filter (·.kind = .jsxAttribute)).map fun n => ⟨e.file, n⟩

/-- The first attribute of a name. -/
def attribute? (name : String) (e : Element) : Option Attribute :=
  e.attributes.find? (·.name = name)

def hasAttribute (name : String) (e : Element) : Bool :=
  (e.attribute? name).isSome

/-- Something between braces stands among the attributes. -/
def hasSpread (e : Element) : Bool :=
  e.opening.namedChildren.any (·.kind = .jsxExpression)

/-! ### Content -/

/-- What stands between the tags, comments left out. -/
def children (e : Element) : List Site :=
  if e.isSelfClosing then []
  else e.site.namedChildren.filter fun s =>
    s.node.role ≠ some .openTag && s.node.role ≠ some .closeTag && s.node.kind ≠ .comment

/-- The elements among some sites. -/
def ofSites (file : SourceFile) (sites : List Site) : List Element :=
  (sites.filter fun s => isElementKind s.node.kind).map fun s => ⟨file, s⟩

def childElements (e : Element) : List Element :=
  ofSites e.file e.children

/-- All elements inside, those in the attributes included. -/
def descendantElements (e : Element) : List Element :=
  if e.isSelfClosing then [] else ofSites e.file e.site.descendants

/-- The trimmed texts inside the element, at any depth, with a space between them. -/
def textContent (e : Element) : String :=
  if e.isSelfClosing then ""
  else
    let parts := (e.site.descendantsWhere (· = .jsxText)).map fun s =>
      Text.trim (e.file.nodeText s.node)
    " ".intercalate (parts.filter (· != ""))

/-- The texts directly between the tags. -/
def directText (e : Element) : String :=
  String.join ((e.children.filter (·.node.kind = .jsxText)).map fun s => e.file.nodeText s.node)

/-! ### Surroundings -/

/-- The nearest element among the nodes above, if only nodes that pass content on stand between. -/
def holderOf (file : SourceFile) : List Node → Option Element
  | [] => none
  | n :: above =>
    if n.kind = .jsxElement then some ⟨file, n, above⟩
    else if n.kind = .jsxOpening || n.kind = .jsxExpression || n.kind = .parenthesized then
      holderOf file above
    else none

/-- The element that this one is rendered in. -/
def parent? (e : Element) : Option Element :=
  holderOf e.file e.site.above

/-- All elements among the nodes above. -/
def holdersOf (file : SourceFile) : List Node → List Element
  | [] => []
  | n :: above =>
    if n.kind = .jsxElement then ⟨file, n, above⟩ :: holdersOf file above
    else holdersOf file above

/-- The elements around this one, the nearest first. -/
def ancestors (e : Element) : List Element :=
  holdersOf e.file e.site.above

end Element

/-! ### Elements of a file -/

namespace SourceFile

/-- All elements in document order. -/
def elements (f : SourceFile) : List Element :=
  Element.ofSites f f.site.descendants

/-- The elements with one of the tags, in document order. -/
def elementsTagged (tags : List String) (f : SourceFile) : List Element :=
  f.elements.filter fun e => tags.contains e.tag

/-- The first of the sites that is an element and starts at the offset. The search ends at an
element that starts behind it. -/
def elementFrom (offset : Nat) : List Site → Option Site
  | [] => none
  | s :: rest =>
    if isElementKind s.node.kind then
      if s.node.start = offset then some s
      else if offset < s.node.start then none
      else elementFrom offset rest
    else elementFrom offset rest

/-- The outermost element that starts at the offset. -/
def elementAt? (offset : Nat) (f : SourceFile) : Option Element :=
  (elementFrom offset f.site.descendants).map fun s => ⟨f, s⟩

end SourceFile

end JsxAudit.Source
