import JsxAudit.Syntax.Grammar.Pattern

/-!
Types: annotations, type arguments and parameters, and the members of object types.

Trees of types are kept shallow. Nothing asks what a type says, but its expressions and names must
not be taken for parts of the program around it.
-/

namespace JsxAudit.Syntax.Parser

section

variable (self : Goal → Parser Node)

/-! ### Arguments and parameters of types -/

def typeArguments : Parser Node :=
  between .typeArguments "<" ">" (sepEndBy "," (self .type))

/-- A type parameter with its bound and default. -/
def typeParameter : Parser Node := do
  let modifiers ← modifiersOf ["const", "in", "out"]
  let name ← nameNode .typeIdentifier
  let bound ← optionalNodes do return [← keyword "extends", ← self .type]
  let value ← optionalNodes do return [← mark "=", ← self .type]
  return nodeOf .typeParameter (modifiers ++ [name.withRole .name] ++ bound ++ value)

def typeParameters : Parser Node :=
  between .typeParameters "<" ">" (sepEndBy "," (typeParameter self))

def optionalTypeParameters : Parser (List Node) :=
  optionalNodes do return [← typeParameters self]

/-- What a function gives back: a type, or what it asserts about a parameter. -/
def resultType : Parser Node := do
  let colon ← mark ":"
  let asserts ← optionalNodes do
    let word ← keyword "asserts"
    require (isNameStart ((← peek).getD ' '))
    return [word]
  return nodeOf .typeMark ([colon] ++ asserts ++ [← self .type])

def optionalResultType : Parser (List Node) :=
  optionalNodes do return [← resultType self]

/-! ### Object types -/

/-- The key of a member between brackets: an index or a mapping. -/
def bracketKey : Parser (List Node) := do
  let opening ← mark "["
  let name ← nameNode .identifier
  let link ← mark ":" <|> keyword "in"
  let type ← self .type
  let rename ← optionalNodes do return [← keyword "as", ← self .type]
  return [opening, name, link, type] ++ rename ++ [← mark "]"]

/-- Parameters and result of a call. -/
def callSignature : Parser (List Node) := do
  let generics ← optionalTypeParameters self
  let parameters ← formalParameters self
  return generics ++ [parameters] ++ (← optionalResultType self)

/-- One member of an object type. -/
def typeMember : Parser Node := do
  let modifiers ← modifiersOf
    ["readonly", "public", "private", "protected", "static", "get", "set"]
  let sign ← optionalNodes do return [← markOf ["+", "-"], ← keyword "readonly"]
  let body ←
    (do
      let key ← bracketKey self
      let mark? ← optionalNodes do return [← markOf ["+?", "-?", "?"]]
      return key ++ mark? ++ (← optionalNodes do return [← typeMark self]))
    <|> (do
      let new? ← optionalNodes do return [← keyword "new"]
      return new? ++ (← callSignature self))
    <|> (do
      let name ← propertyName self
      let mark? ← optionalNodes do return [← mark "?"]
      let signature ← callSignature self <|>
        optionalNodes do return [← typeMark self]
      return name.withRole .name :: mark? ++ signature)
  return nodeOf .typeMember (modifiers ++ sign ++ body)

/-- What ends a member: a semicolon, a comma, or a line break. -/
def memberEnd : Parser (List Node) :=
  (do return [← markOf [";", ","]]) <|> do
    impliedEnd ((← cursor).bound + 1)
    return []

def objectType : Parser Node := do
  let opening ← mark "\x7b"
  let empty ← manyNodes do return [← markOf [";", ","]]
  let members ← manyNodes do
    let member ← typeMember self
    return member :: (← memberEnd)
  return nodeOf .typeExpression (opening :: empty ++ members ++ [← mark "\x7d"])

/-! ### Types -/

/-- A name, possibly with qualifiers and arguments. -/
def typeReference : Parser Node := do
  let first ← nameNode .typeIdentifier
  let qualifiers ← manyNodes do return [← mark ".", ← nameNode .typeIdentifier]
  let arguments ← optionalNodes do return [← typeArguments self]
  if qualifiers.isEmpty && arguments.isEmpty then return first
  return nodeOf .typeExpression (first :: qualifiers ++ arguments)

/-- One step of a chain of accesses and calls whose type is asked for. -/
def queryStep (subject : Node) : Parser Node :=
  (do
    let dot ← markOf [".", "?."]
    let name ← nameNode .propertyIdentifier <|> privateName
    return nodeOf .member [subject.withRole .object, dot, name.withRole .property])
  <|> (do
    let opening ← mark "["
    let index ← stringLiteral <|> number
    return nodeOf .subscript [subject.withRole .object, opening, index, ← mark "]"])
  <|> do
    let arguments ← enclosedHoles .arguments "(" ")" (self (.assignment {}))
    return nodeOf .call [subject.withRole .callee, arguments.withRole .arguments]

/-- A chain of accesses and calls whose type is asked for. -/
def typeQuery : Parser Node := do
  let word ← keyword "typeof"
  let first ← match ← peekWord with
    | "import" => nameNode .importKeyword
    | "this" => nameNode .thisKeyword
    | _ => nameNode .identifier
  let target ← chainFrom (queryStep self) first (← cursor).bound
  return nodeOf .typeExpression
    (word :: target :: (← optionalNodes do return [← typeArguments self]))

def functionType : Parser Node := do
  let words ← manyNodes do return [← keywordOf ["abstract", "new"]]
  let generics ← optionalTypeParameters self
  let parameters ← formalParameters self
  let arrow ← mark "=>"
  let asserts ← optionalNodes do
    let word ← keyword "asserts"
    require (isNameStart ((← peek).getD ' '))
    return [word]
  return nodeOf .typeExpression (words ++ generics ++ [parameters, arrow] ++ asserts ++
    [← self .type])

/-- A position of a tuple, which may be named, optional or a rest. -/
def tuplePart : Parser Node := do
  let dots ← optionalNodes do return [← mark "..."]
  let name ← optionalNodes do
    let name ← nameNode .identifier
    let mark? ← optionalNodes do return [← mark "?"]
    return name :: mark? ++ [← mark ":"]
  let type ← self .type
  return nodeOf .typeExpression (dots ++ name ++ [type] ++
    (← optionalNodes do return [← mark "?"]))

/-- A type that is not made of others by operators. -/
def primaryType : Parser Node := do
  match ← peek with
  | some '(' =>
    functionType self
      <|> do return nodeOf .typeExpression [← mark "(", ← self .type, ← mark ")"]
  | some '<' => functionType self
  | some '{' => objectType self
  | some '[' => enclosed .typeExpression "[" "]" (tuplePart self)
  | some '-' => do return nodeOf .typeExpression [← mark "-", ← number]
  | some c =>
    if c == '"' || c == Char.ofNat 39 then stringLiteral
    else if c == Char.ofNat 96 then templateWith (self .type)
    else if c.isDigit then number
    else
      match ← peekWord with
      | "typeof" => typeQuery self <|> typeReference self
      | "new" | "abstract" => functionType self <|> typeReference self
      | "import" => do
        let word ← keyword "import"
        let opening ← mark "("
        let path ← stringLiteral
        let closing ← mark ")"
        let names ← manyNodes do return [← mark ".", ← nameNode .typeIdentifier]
        return nodeOf .typeExpression ([word, opening, path, closing] ++ names ++
          (← optionalNodes do return [← typeArguments self]))
      | _ => typeReference self
  | none => failure

/-- A primary type followed by brackets on the same line. -/
def postfixType : Parser Node := do
  let first ← primaryType self
  (← many do
    require !(← lineBreakAhead)
    let opening ← mark "["
    let index ← optionalNodes do return [← self .type]
    return opening :: index ++ [← mark "]"]).foldlM
    (fun inner brackets => pure (nodeOf .typeExpression (inner :: brackets))) first

/-- Words that make a type from the type behind them. -/
def typeOperators : List String :=
  ["keyof", "unique", "readonly", "infer"]

/-- A type behind any number of operator words, or what a test says about a name. -/
def operatorType : Parser Node := do
  let words ← manyNodes do
    let word ← keywordOf typeOperators
    match ← peek with
    | some c => require (isNameStart c || ['(', '[', '{', '"', Char.ofNat 39].contains c)
    | none => failure
    return [word]
  let type ← postfixType self
  let test ← optionalNodes do
    require !(← lineBreakAhead)
    return [← keyword "is", ← self .type]
  if words.isEmpty && test.isEmpty then return type
  return nodeOf .typeExpression (words ++ [type] ++ test)

/-- Types joined by a mark, which may also come first. -/
def joinedType (sep : String) (part : Parser Node) : Parser Node := do
  let first ← optionalNodes do return [← mark sep]
  let head ← part
  let more ← manyNodes do return [← markNot sep ['|', '&', '='], ← part]
  if first.isEmpty && more.isEmpty then return head
  return nodeOf .typeExpression (first ++ [head] ++ more)

def type : Parser Node := do
  let subject ← joinedType "|" (joinedType "&" (operatorType self))
  let condition ← optionalNodes do
    require !(← lineBreakAhead)
    let word ← keyword "extends"
    let bound ← joinedType "|" (joinedType "&" (operatorType self))
    let question ← mark "?"
    let yes ← self .type
    let colon ← mark ":"
    return [word, bound, question, yes, colon, ← self .type]
  if condition.isEmpty then return subject
  return nodeOf .typeExpression (subject :: condition)

end

end JsxAudit.Syntax.Parser
