import JsxAudit.Source.Element
import JsxAudit.Text.Casing

/-!
Properties of a list's items that can tell the labels of repeated controls apart.

A control rendered by a function that is handed to `map`, `flatMap` or `forEach` is repeated once
per item. `find?` looks in that function for an access to a property of the item, `wrap` puts such
an access behind a label.
-/

namespace JsxAudit.Label.LoopVariable

open Source Syntax

/-! ### The enclosing callback -/

/-- Ends of the names of methods that call a function for each item. -/
def iterationMethods : List String :=
  [".map", ".flatMap", ".forEach"]

/-- The nodes above a function say that it is an argument of an iteration. -/
def isIterated (file : SourceFile) : List Node → Bool
  | arguments :: call :: _ =>
    arguments.kind = .arguments && call.kind = .call &&
      (call.child? .callee).any fun callee =>
        iterationMethods.any (Text.endsWith · (file.nodeText callee))
  | _ => false

/-- The nearest function among the nodes above that is handed to an iteration. -/
def enclosingCallback? (file : SourceFile) : List Node → Option Node
  | [] => none
  | n :: above =>
    if (n.kind = .arrowFunction || n.kind = .functionExpression) && isIterated file above then
      some n
    else enclosingCallback? file above

/-- The name of the first parameter, if it is a plain name. -/
def firstParameterOf (file : SourceFile) : List Node → Option String
  | [] => none
  | p :: rest =>
    match p.kind with
    | .identifier => some (file.nodeText p)
    | .requiredParameter | .optionalParameter =>
      ((p.child? .pattern).filter (·.kind = .identifier)).map file.nodeText
    | .comment => firstParameterOf file rest
    | _ => none

def firstParameter? (file : SourceFile) (function : Node) : Option String :=
  match function.child? .parameter with
  | some single => if single.kind = .identifier then some (file.nodeText single) else none
  | none => (function.child? .parameters).bind fun ps => firstParameterOf file ps.namedChildren

/-! ### Accesses to the item -/

/-- An access as written, and the property it asks for. -/
structure Access where
  text : String
  property : String
  deriving DecidableEq, Repr

/-- The access that a node makes to a property of `item`. -/
def accessOf? (file : SourceFile) (item : String) (n : Node) : Option Access := do
  let object ← n.child? .object
  let property ← n.child? .property
  if n.kind = .member && object.kind = .identifier && file.nodeText object = item then
    some ⟨file.nodeText n, file.nodeText property⟩
  else none

/-- The accesses in a node in document order. -/
def accesses (file : SourceFile) (item : String) (root : Node) : List Access :=
  let site : Site := ⟨root, []⟩
  (root :: site.descendants.map (·.node)).filterMap (accessOf? file item)

/-- Properties that name an item, the best first. -/
def labelProperties : List String :=
  ["label", "name", "title", "heading", "text"]

/-- Properties that will do for want of a better one, in any case of letters. -/
def fallbackProperties : List String :=
  labelProperties ++ ["id", "placeholder"]

def isFallbackProperty (property : String) : Bool :=
  fallbackProperties.any fun word =>
    (Text.dropLiteral word.toList property.toList).any fun rest => rest.isEmpty || rest == ['\n']

/-- The best access for a label. -/
def best? (found : List Access) : Option String :=
  (labelProperties.findSome? fun property =>
    (found.find? (·.property = property)).map (·.text)).or
      ((found.find? fun a => isFallbackProperty a.property).map (·.text))

/-- The best property of the item that an element is rendered for. With `inContent` it must be one
that the element shows between its tags. -/
def find? (e : Element) (inContent : Bool) : Option String := do
  let callback ← enclosingCallback? e.file e.site.above
  let item ← firstParameter? e.file callback
  let body ← callback.child? .body
  let found := accesses e.file item body
  if inContent then
    let rendered := e.children.flatMap fun s => (accesses e.file item s.node).map (·.text)
    best? (found.filter fun a => rendered.contains a.text)
  else best? found

/-! ### Labels with a variable -/

/-- The mark of a template. -/
def tick : Char := Char.ofNat 96

/-- Characters as they are written in a template to stand for themselves. -/
def escapeTemplate : List Char → List Char
  | [] => []
  | '$' :: '{' :: rest => '\\' :: '$' :: '{' :: escapeTemplate rest
  | c :: rest =>
    if c = '\\' || c = tick then '\\' :: c :: escapeTemplate rest else c :: escapeTemplate rest

/-- A template expression between braces: the label, a space, and the value of the variable. -/
def wrapChars (label variable' : List Char) : List Char :=
  '{' :: tick :: escapeTemplate label ++ ' ' :: '$' :: '{' :: variable' ++ ['}', tick, '}']

def wrap (label variable' : String) : String :=
  String.ofList (wrapChars label.toList variable'.toList)

end JsxAudit.Label.LoopVariable
