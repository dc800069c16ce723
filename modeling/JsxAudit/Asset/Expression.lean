import JsxAudit.Asset.Module
import JsxAudit.Source.Element
import JsxAudit.Source.Import

/-!
Images that expressions in a source file stand for.

An expression is looked at as a text. It may name an import, a property of an object that a
parameter or a variable has from the beginning, or an object of which any value is taken. Calls
are never followed. An object whose values lead back to it has no image: looking for one is a
fault.
-/

namespace JsxAudit.Asset

open Data Source Storage Syntax

/-! ### Objects -/

/-- The text of the first property of an object that has the name. -/
def objectProperty? (f : SourceFile) (property : String) (object : Node) : Option String :=
  (object.namedChildren.findSome? fun pair =>
    match pair.child? .key, pair.child? .value with
    | some key, some value =>
      if pair.kind = .pair ∧ Text.trimMatching isQuote (f.nodeText key) = property then
        some (f.stringValue? value)
      else none
    | _, _ => none).join

/-- Declarators of the file that give an object a name. -/
def isObjectDeclarator (f : SourceFile) (name : String) (n : Node) : Bool :=
  match n.child? .name, n.child? .value with
  | some ident, some value =>
    n.kind = .variableDeclarator && f.nodeText ident = name && value.kind = .object
  | _, _ => false

/-- The object that the first such declarator gives the name. -/
def declaredObject? (f : SourceFile) (name : String) : Option Node :=
  ((f.site.descendants.find? fun s => isObjectDeclarator f name s.node).bind fun s =>
    s.node.child? .value)

/-- Number of declarators in the file. -/
def declaratorCount (f : SourceFile) : Nat :=
  f.site.descendants.countP fun s => s.node.kind = .variableDeclarator

/-! ### Parameters -/

def isFunctionKind (k : Kind) : Bool :=
  k = .functionDeclaration || k = .functionExpression || k = .arrowFunction ||
    k = .generatorFunctionDeclaration || k = .methodDefinition

/-- What a parameter has for the name if nothing is handed over: its own default, or that of a
name in its pattern. -/
def parameterDefault? (f : SourceFile) (name : String) (parameter : Node) : Option Node := do
  let pattern ← parameter.child? .pattern
  match pattern.kind with
  | .identifier => if f.nodeText pattern = name then parameter.child? .value else none
  | .objectPattern =>
    (pattern.namedChildren.find? fun n =>
      n.kind = .objectAssignmentPattern && (n.child? .left).any (f.nodeText · = name)).bind
        (·.child? .right)
  | _ => none

/-- The property of the first parameter that has the name and an object for it. -/
def parameterProperty? (f : SourceFile) (name property : String) : Option String :=
  (f.site.descendants.filter fun s => isFunctionKind s.node.kind).findSome? fun s =>
    ((s.node.child? .parameters).map (·.namedChildren)).getD [] |>.findSome? fun parameter =>
      ((parameterDefault? f name parameter).filter (·.kind = .object)).bind
        (objectProperty? f property)

/-- A property of an object that a parameter or a variable has. An empty text counts as none. -/
def property? (f : SourceFile) (name property : String) : Option String :=
  (((parameterProperty? f name property).filter (· != "")).or
    ((declaredObject? f name).bind (objectProperty? f property))).filter (· != "")

/-! ### Expressions -/

/-- The image that the import of a name leads to. -/
def importedImage? (d : Disk) (root : String) (f : SourceFile) (name : String) :
    Except Fault (Option String) :=
  match f.imports.find? (·.name = name) with
  | none => .ok none
  | some b =>
    let exported := if b.imported = "default" ∨ b.imported = "*" then none else some b.imported
    imageOf? d root f.path b.module exported

/-- The image of the first of some texts that has one. -/
def firstImage (image : String → Except Fault (Option String)) :
    List String → Except Fault (Option String)
  | [] => .ok none
  | s :: rest => do
    match (← image s).filter (· != "") with
    | some path => return some path
    | none => firstImage image rest

/-- The name that an expression is looked up by: without blanks around it and without `.src`. -/
@[irreducible] def lookupName (expression : String) : String :=
  let name := Text.trim expression
  if Text.endsWith ".src" name then String.ofList (name.toList.take (name.length - 4)) else name

/-- The texts of the values of a declared object. -/
def objectValues (f : SourceFile) (name : String) : List String :=
  (((declaredObject? f name).map (·.namedChildren)).getD []).filterMap fun pair =>
    if pair.kind = .pair then (pair.child? .value).map f.nodeText else none

/-- The object of which an expression takes a value: what stands before its first bracket. -/
def indexedObject? (expression : String) : Option String :=
  let name := lookupName expression
  if name.toList.contains '(' then none
  else if name.toList.contains '[' then (some (Label.before '[' name)).filter (· != "")
  else none

/-- What a name in two parts says: a property of an object. -/
def dottedProperty? (f : SourceFile) (name : String) : Option String :=
  match Text.splitOn '.' name with
  | [object, property] =>
    if object != "" && property != "" then property? f object property else none
  | _ => none

/-- The image of an expression that takes no value of an object. -/
def plainImage (d : Disk) (root : String) (f : SourceFile) (expression : String) :
    Except Fault (Option String) :=
  let name := lookupName expression
  if name.toList.contains '(' || name.toList.contains '[' then .ok none
  else
    match dottedProperty? f name with
    | some path => .ok (some path)
    | none => importedImage? d root f name

/-- The image of an expression, through at most `fuel` objects one inside the other. -/
def expressionImage (d : Disk) (root : String) (f : SourceFile) :
    (fuel : Nat) → String → Except Fault (Option String)
  | fuel, expression =>
    match indexedObject? expression, fuel with
    | none, _ => plainImage d root f expression
    | some object, fuel + 1 => firstImage (expressionImage d root f fuel) (objectValues f object)
    | some object, 0 => if (objectValues f object).isEmpty then .ok none else .error .endless

/-- The image of an expression. Every object on the way is declared in the file, so a way longer
than the number of declarators goes in a circle. -/
def image? (d : Disk) (root : String) (f : SourceFile) (expression : String) :
    Except Fault (Option String) :=
  expressionImage d root f (declaratorCount f) expression

end JsxAudit.Asset
