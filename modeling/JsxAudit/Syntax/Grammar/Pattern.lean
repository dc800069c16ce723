import JsxAudit.Syntax.Literal

/-!
Binding patterns and parameters, and the goals that all grammar rules share.

A rule that needs another one by recursion asks for it by its `Goal`. The rules are parsers over an
arbitrary answer to goals, `self`; `Syntax.Parse` ties the knot.
-/

namespace JsxAudit.Syntax

/-- Where an expression stands. -/
structure Context where
  /-- The operator `in` belongs to the loop around the expression. -/
  noIn : Bool := false
  /-- A colon belongs to the condition around the expression. -/
  noResultType : Bool := false
  deriving DecidableEq

/-- What a recursive rule can ask for. -/
inductive Goal where
  | statement
  | block
  | expression
  | assignment (context : Context)
  | binary (precedence : Nat) (context : Context)
  | unary
  | newTarget
  | pattern
  | type
  | element

namespace Parser

/-- An expression without a comma, in the ordinary context. -/
def Goal.plain : Goal :=
  .assignment {}

section

variable (self : Goal → Parser Node)

/-- A colon and a type. -/
def typeMark : Parser Node := do
  return nodeOf .typeMark [← mark ":", ← self .type]

/-- An equals sign and an expression. -/
def initializer : Parser (List Node) := do
  let equals ← markNot "=" ['=', '>']
  return [equals, (← self (.assignment {})).withRole .value]

/-! ### Property names -/

/-- A name between brackets. -/
def computedName : Parser Node := do
  return nodeOf .computedName [← mark "[", ← self .expression, ← mark "]"]

def privateName : Parser Node := do
  let hash ← mark "#"
  require (((← cursor).rest.head?.map isNameStart).getD false)
  let name ← nameNode .privateIdentifier
  return .mk .privateIdentifier none hash.start name.stop []

def propertyName : Parser Node :=
  nameNode .propertyIdentifier <|> stringLiteral <|> number <|> computedName self <|> privateName

/-! ### Patterns -/

def restPattern : Parser Node := do
  return nodeOf .restPattern [← mark "...", ← self .pattern]

/-- A pattern that may have a default. -/
def patternWithDefault : Parser Node := do
  let target ← self .pattern
  match ← optional? (initializer self) with
  | some [equals, value] =>
    return nodeOf .assignmentPattern
      [target.withRole .left, equals, value.withRole .right]
  | _ => return target

/-- One part of an object pattern. -/
def objectPatternPart : Parser Node :=
  restPattern self
  <|> (do
    let key ← propertyName self
    let colon ← mark ":"
    let value ← patternWithDefault self
    return nodeOf .pairPattern [key.withRole .key, colon, value.withRole .value])
  <|> do
    let name ← nameNode .shorthandPattern
    match ← optional? (initializer self) with
    | some [equals, value] =>
      return nodeOf .objectAssignmentPattern
        [name.withRole .left, equals, value.withRole .right]
    | _ => return name

/-- Parts between two marks. -/
def between (kind : Kind) (opening closing : String) (parts : Parser (List Node)) :
    Parser Node := do
  let first ← mark opening
  let inner ← parts
  return nodeOf kind (first :: inner ++ [← mark closing])

/-- Parts between two marks, separated by commas. -/
def enclosed (kind : Kind) (opening closing : String) (part : Parser Node) : Parser Node :=
  between kind opening closing (optionalNodes (sepEndBy "," part))

/-- Parts between two marks, separated by commas, of which any may be left out. -/
def enclosedHoles (kind : Kind) (opening closing : String) (part : Parser Node) : Parser Node :=
  between kind opening closing (sepByHoles "," part)

def objectPattern : Parser Node :=
  enclosedHoles .objectPattern "\x7b" "\x7d" (objectPatternPart self)

def arrayPattern : Parser Node :=
  enclosedHoles .arrayPattern "[" "]" (restPattern self <|> patternWithDefault self)

def pattern : Parser Node := do
  match ← peek with
  | some '{' => objectPattern self
  | some '[' => arrayPattern self
  | some '.' => restPattern self
  | _ => nameNode .identifier

/-! ### Parameters -/

/-- A call or name behind an at sign. -/
def decorator : Parser Node := do
  return nodeOf .decorator [← mark "@", ← self .unary]

/-- Words that may stand before a parameter. -/
def parameterModifiers : List String :=
  ["public", "private", "protected", "override", "readonly"]

/-- Words before a name, which are no name themselves. -/
def modifiersOf (words : List String) : Parser (List Node) :=
  manyNodes do
    let word ← keywordOf words
    match ← peek with
    | some c =>
      require (isNameStart c || ['[', '{', '*', '#', '"', '@', Char.ofNat 39].contains c)
      return [word]
    | none => failure

/-- A parameter, required unless it has a question mark. -/
def parameter : Parser Node := do
  let before ← manyNodes do return [← decorator self]
  let modifiers ← modifiersOf parameterModifiers
  let target ← self .pattern
  let mark? ← optionalNodes do return [← mark "?"]
  let typed ← optionalNodes do return [← typeMark self]
  let value ← optionalNodes (initializer self)
  let kind : Kind := if mark?.isEmpty then .requiredParameter else .optionalParameter
  return nodeOf kind
    (before ++ modifiers ++ [target.withRole .pattern] ++ mark? ++ typed ++ value)

def formalParameters : Parser Node :=
  enclosed .formalParameters "(" ")" (parameter self)

end

end Parser

end JsxAudit.Syntax
