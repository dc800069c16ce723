import JsxAudit.Syntax.Grammar.Element

/-!
Expressions: literals, functions, classes, calls and accesses, operators with their precedence,
assignments and arrow functions.
-/

namespace JsxAudit.Syntax.Parser

section

variable (self : Goal → Parser Node)

/-! ### Functions -/

/-- Generic parameters, parameters and result of a function. -/
def functionHead : Parser (List Node) := do
  let generics ← optionalTypeParameters self
  let parameters ← formalParameters self
  return generics ++ [parameters.withRole .parameters] ++ (← optionalResultType self)

def functionBody : Parser Node := do
  return (← self .block).withRole .body

/-- The word `async` with its function on the same line. -/
def asyncWord : Parser (List Node) :=
  optionalNodes do
    let word ← keyword "async"
    require !(← lineBreakAhead)
    return [word]

def functionExpression : Parser Node := do
  let async ← asyncWord
  let word ← keyword "function"
  let star ← optionalNodes do return [← mark "*"]
  let name ← optionalNodes do return [(← nameNode .identifier).withRole .name]
  let head ← functionHead self
  let kind : Kind := if star.isEmpty then .functionExpression else .generatorFunction
  return nodeOf kind (async ++ [word] ++ star ++ name ++ head ++ [← functionBody self])

/-- What stands before the arrow of an arrow function. -/
def arrowHead (context : Context) : Parser (List Node) :=
  (do
    let generics ← optionalTypeParameters self
    let parameters ← formalParameters self
    let result ← if context.noResultType then pure [] else optionalResultType self
    return generics ++ [parameters.withRole .parameters] ++ result)
  <|> do return [(← nameNode .identifier).withRole .parameter]

def arrowFunction (context : Context) : Parser Node := do
  let start (async : List Node) : Parser (List Node × Node) := do
    let head ← arrowHead self context
    return (async ++ head, ← mark "=>")
  let (head, arrow) ←
    (do
      let word ← keyword "async"
      require !(← lineBreakAhead)
      start [word]) <|> start []
  let body ← match ← peek with
    | some '{' => self .block
    | _ => self (.assignment context)
  return nodeOf .arrowFunction (head ++ [arrow, body.withRole .body])

/-! ### Members of objects and classes -/

/-- A method: modifiers, name, head and body. -/
def methodDefinition : Parser Node := do
  let modifiers ← modifiersOf ["async", "get", "set"]
  let star ← optionalNodes do return [← mark "*"]
  let name ← propertyName self
  let question ← optionalNodes do return [← mark "?"]
  let head ← functionHead self
  return nodeOf .methodDefinition
    (modifiers ++ star ++ [name.withRole .name] ++ question ++ head ++ [← functionBody self])

/-- One part of an object. -/
def objectPart : Parser Node :=
  spread self
  <|> methodDefinition self
  <|> (do
    let key ← propertyName self
    let colon ← mark ":"
    return nodeOf .pair
      [key.withRole .key, colon, (← self (.assignment {})).withRole .value])
  <|> nameNode .shorthandProperty

def object : Parser Node :=
  enclosedHoles .object "\x7b" "\x7d" (objectPart self)

/-- Words that may stand before a class member. -/
def memberModifiers : List String :=
  ["declare", "public", "private", "protected", "static", "abstract", "override", "readonly",
    "async", "get", "set", "accessor"]

/-- One member of a class with what ends it. -/
def classMember : Parser (List Node) :=
  (do return [← mark ";"])
  <|> (do
    let word ← keyword "static"
    return [nodeOf .staticBlock [word, ← self .block]])
  <|> do
    let decorators ← manyNodes do return [← decorator self]
    let modifiers ← modifiersOf memberModifiers
    let star ← optionalNodes do return [← mark "*"]
    let index ← optionalNodes (bracketKey self)
    let before := decorators ++ modifiers ++ star
    if !index.isEmpty then
      let typed ← optionalNodes do return [← typeMark self]
      let node := nodeOf .typeMember (before ++ index ++ typed)
      return node :: (← statementEnd)
    let name ← propertyName self
    let sign ← optionalNodes do return [← markOf ["?", "!"]]
    let before := before ++ [name.withRole .name] ++ sign
    (do
      let head ← functionHead self
      (do return [nodeOf .methodDefinition (before ++ head ++ [← functionBody self])]) <|> do
        let node := nodeOf .typeMember (before ++ head)
        return node :: (← statementEnd))
    <|> do
      let typed ← optionalNodes do return [← typeMark self]
      let value ← optionalNodes (initializer self)
      let node := nodeOf .fieldDefinition (before ++ typed ++ value)
      return node :: (← statementEnd)

def classBody : Parser Node := do
  let opening ← mark "\x7b"
  let members ← manyNodes (classMember self)
  return nodeOf .classBody (opening :: members ++ [← mark "\x7d"])

/-- What follows the word `class`. -/
def classTail (nameNeeded : Bool) : Parser (List Node) := do
  let named : Parser (List Node) := do
    return [(← nameExcept .typeIdentifier ["extends", "implements"]).withRole .name]
  let name ← if nameNeeded then named else optionalNodes named
  let generics ← optionalTypeParameters self
  let parent ← optionalNodes do
    let word ← keyword "extends"
    let value ← self .unary
    return word :: value :: (← optionalNodes do return [← typeArguments self])
  let contracts ← optionalNodes do
    let word ← keyword "implements"
    return word :: (← sepBy "," (self .type))
  let heritage := parent ++ contracts
  let heritage := if heritage.isEmpty then [] else [nodeOf .classHeritage heritage]
  return name ++ generics ++ heritage ++ [(← classBody self).withRole .body]

def classExpression : Parser Node := do
  let decorators ← manyNodes do return [← decorator self]
  let word ← keyword "class"
  return nodeOf .classExpression (decorators ++ [word] ++ (← classTail self false))

/-! ### Primary expressions -/

def parenthesized : Parser Node := do
  let opening ← mark "("
  let inner ← self .expression
  let typed ← optionalNodes do return [← typeMark self]
  return nodeOf .parenthesized ([opening, inner] ++ typed ++ [← mark ")"])

def array : Parser Node :=
  enclosedHoles .array "[" "]" (spread self <|> self (.assignment {}))

def callArguments : Parser Node :=
  enclosedHoles .arguments "(" ")" (spread self <|> self (.assignment {}))

/-- Words that begin an expression of their own kind and are no names there. -/
def expressionWords : List String :=
  ["function", "class", "new", "typeof", "void", "delete", "await", "yield", "this", "super",
    "null", "undefined", "true", "false", "import"]

/-- A word as an expression. -/
def wordExpression : Parser Node := do
  match ← peekWord with
  | "function" => functionExpression self
  | "async" => functionExpression self <|> nameNode .identifier
  | "class" => classExpression self
  | "this" => keyNode .thisKeyword
  | "super" => keyNode .superKeyword
  | "null" => keyNode .nullLiteral
  | "undefined" => keyNode .undefinedLiteral
  | "true" => keyNode .trueLiteral
  | "false" => keyNode .falseLiteral
  | "new" =>
    (do
      let word ← keyword "new"
      return nodeOf .metaProperty [word, ← mark ".", ← keyword "target"])
    <|> (do
      let word ← keyword "new"
      let target ← self .newTarget
      let generics ← optionalNodes do return [← typeArguments self]
      let arguments ← optionalNodes do return [(← callArguments self).withRole .arguments]
      return nodeOf .new ([word, target] ++ generics ++ arguments))
    <|> nameNode .identifier
  | "import" =>
    (do
      let word ← keyword "import"
      return nodeOf .metaProperty [word, ← mark ".", ← keyword "meta"])
    <|> do
      let node ← keyNode .importKeyword
      require ((← peek) == some '(')
      return node
  | _ => nameExcept .identifier expressionWords
where
  keyNode (kind : Kind) : Parser Node := do
    let word ← nameNode kind
    return word

def primary : Parser Node := do
  match ← peek with
  | none => failure
  | some '(' => parenthesized self
  | some '[' => array self
  | some '{' => object self
  | some '<' => self .element
  | some '/' => regexLiteral
  | some '@' => classExpression self
  | some '#' => privateName
  | some c =>
    if c == '"' || c == Char.ofNat 39 then stringLiteral
    else if c == Char.ofNat 96 then templateWith (self .expression)
    else if c.isDigit || c == '.' then number
    else wordExpression self

/-! ### Calls and accesses -/

/-- A property behind a dot. -/
def accessedName : Parser Node := do
  return (← nameNode .propertyIdentifier <|> privateName).withRole .property

/-- The mark of an access that may find nothing. -/
def optionalChain : Parser Node := do
  let token ← mark "?."
  require !(((← cursor).rest.head?.map Char.isDigit).getD false)
  return nodeOf .optionalChain [token]

/-- An access to a property of what has been read. -/
def memberAccess (object : Node) : Parser Node := do
  (do
    let dot ← mark "."
    return nodeOf .member [object.withRole .object, dot, ← accessedName])
  <|> (do
    let opening ← mark "["
    let index ← self .expression
    return nodeOf .subscript [object.withRole .object, opening, index, ← mark "]"])

def templateCall (callee : Node) : Parser Node := do
  require ((← peek) == some (Char.ofNat 96))
  let text ← templateWith (self .expression)
  return nodeOf .call [callee.withRole .callee, text.withRole .arguments]

/-- Type arguments for a function that is not called here. -/
def instantiation (function : Node) : Parser Node := do
  require ((← peek) == some '<')
  let generics ← typeArguments self
  require ([none, some ';', some ',', some ')', some ']', some '}'].contains (← peek))
  return nodeOf .instantiation [function, generics]

/-- One step of a chain of accesses and calls. -/
def chainStep (subject : Node) : Parser Node :=
  memberAccess self subject
  <|> (do
    let chain ← optionalChain
    (do
      let opening ← mark "["
      let index ← self .expression
      return nodeOf .subscript [subject.withRole .object, chain, opening, index, ← mark "]"])
    <|> (do
      let generics ← optionalNodes do return [← typeArguments self]
      let arguments ← callArguments self
      return nodeOf .call
        ([subject.withRole .callee, chain] ++ generics ++ [arguments.withRole .arguments]))
    <|> do return nodeOf .member [subject.withRole .object, chain, ← accessedName])
  <|> (do
    let arguments ← callArguments self
    return nodeOf .call [subject.withRole .callee, arguments.withRole .arguments])
  <|> templateCall self subject
  <|> (do
    require ((← peek) == some '<')
    let generics ← typeArguments self
    let arguments ← callArguments self
    return nodeOf .call
      [subject.withRole .callee, generics, arguments.withRole .arguments])
  <|> instantiation self subject
  <|> do
    require !(← lineBreakAhead)
    return nodeOf .nonNull [subject, ← markNot "!" ['=']]

/-- The target of `new`: accesses, but no calls. -/
def newTarget : Parser Node := do
  let bound := (← cursor).bound
  chainFrom (memberAccess self) (← primary self) bound

/-- A chain of accesses and calls, which may be counted up or down on the same line. -/
def postfixExpression : Parser Node := do
  let bound := (← cursor).bound
  let subject ← chainFrom (chainStep self) (← primary self) bound
  (do
    require !(← lineBreakAhead)
    return nodeOf .update [subject, ← markOf ["++", "--"]]) <|> pure subject

/-! ### Operators -/

/-- Words that are operators before their operand. -/
def prefixWords : List String :=
  ["typeof", "void", "delete"]

def unary : Parser Node := do
  match ← peek with
  | some c =>
    if ['+', '-', '!', '~'].contains c then
      (do
        let token ← markOf ["++", "--"]
        return nodeOf .update [token, ← self .unary])
      <|> do
        let token ← markOf ["+", "-", "!", "~"]
        return nodeOf .unary [token, ← self .unary]
    else
      match ← peekWord with
      | "await" => do return nodeOf .await [← keyword "await", ← self .unary]
      | word =>
        if prefixWords.contains word then
          return nodeOf .unary [← keyword word, ← self .unary]
        else postfixExpression self
  | none => failure

/-- Operators between two operands with their precedence, longer spellings first. A character of
the list behind the operator makes it another one. -/
def binaryMarks : List (String × Nat × List Char) :=
  [(">>>", 9, ['=']), ("===", 7, []), ("!==", 7, []), ("**", 12, ['=']), ("<<", 9, ['=']),
    (">>", 9, ['=', '>']), ("<=", 8, []), (">=", 8, []), ("==", 7, ['=']), ("!=", 7, ['=']),
    ("&&", 3, ['=']), ("||", 2, ['=']), ("??", 1, ['=']), ("<", 8, ['=', '<']),
    (">", 8, ['=', '>']), ("+", 10, ['=', '+']), ("-", 10, ['=', '-']), ("*", 11, ['=', '*']),
    ("/", 11, ['=']), ("%", 11, ['=']), ("&", 6, ['=', '&']), ("|", 4, ['=', '|']),
    ("^", 5, ['='])]

/-- An operator from the list whose precedence is at least `least`. -/
def operatorOf (least : Nat) : List (String × Nat × List Char) → Parser (Node × Nat)
  | [] => failure
  | (spelling, precedence, follow) :: rest =>
    (do
      require (least ≤ precedence)
      return (← markNot spelling follow, precedence)) <|> operatorOf least rest

/-- The operator at the cursor, if it binds strongly enough. -/
def binaryOperator (least : Nat) (context : Context) : Parser (Node × Nat) := do
  match ← peekWord with
  | "" => operatorOf least binaryMarks
  | "instanceof" => do
    require (least ≤ 8)
    return (← keyword "instanceof", 8)
  | "in" => do
    require (least ≤ 8 && !context.noIn)
    return (← keyword "in", 8)
  | _ => failure

/-- An operand continued by one operator. -/
def binaryStep (least : Nat) (context : Context) (left : Node) : Parser Node :=
  (do
    require (least ≤ 8)
    let word ← keywordOf ["as", "satisfies"]
    let type ← keyword "const" <|> self .type
    let kind : Kind :=
      if word.kind = .token "as" then .asExpression else .satisfiesExpression
    return nodeOf kind [left, word, type])
  <|> do
    let (token, precedence) ← binaryOperator least context
    let next := if precedence = 12 then precedence else precedence + 1
    let right ← self (.binary next context)
    return nodeOf .binary [left.withRole .left, token, right.withRole .right]

/-- Operands joined by operators that bind at least as strongly as `least`. -/
def binary (least : Nat) (context : Context) : Parser Node := do
  let bound := (← cursor).bound
  chainFrom (binaryStep self least context) (← self .unary) bound

/-! ### Conditions and assignments -/

/-- What the yes-branch of a condition can be, and the colon behind it. -/
def yesBranch : Parser (Node × Node) :=
  (do return (← self (.assignment {}), ← mark ":"))
    <|> do return (← self (.assignment { noResultType := true }), ← mark ":")

def conditional (context : Context) : Parser Node := do
  let condition ← self (.binary 1 context)
  (do
    let question ← markNot "?" ['?', '.']
      <|> do
        let token ← mark "?"
        match (← cursor).rest with
        | '.' :: d :: _ =>
          require d.isDigit
          return token
        | _ => failure
    let (yes, colon) ← yesBranch self
    let no ← self (.assignment context)
    return nodeOf .ternary [condition.withRole .condition, question,
      yes.withRole .consequence, colon, no.withRole .alternative])
  <|> pure condition

/-- What can be assigned to. -/
def isAssignable : Kind → Bool
  | .identifier | .member | .subscript | .nonNull | .array | .object | .objectPattern
  | .arrayPattern | .parenthesized | .undefinedLiteral => true
  | _ => false

def augmentedMarks : List String :=
  [">>>=", "<<=", ">>=", "**=", "&&=", "||=", "??=", "+=", "-=", "*=", "/=", "%=", "&=", "|=",
    "^="]

def yieldExpression (context : Context) : Parser Node := do
  let word ← keyword "yield"
  let star ← optionalNodes do return [← mark "*"]
  let value ← optionalNodes do
    require !(← lineBreakAhead)
    return [← self (.assignment context)]
  return nodeOf .yield (word :: star ++ value)

/-- An assignment to a pattern that is no expression. -/
def patternAssignment (context : Context) : Parser Node := do
  let target ← self .pattern
  let equals ← markNot "=" ['=', '>']
  return nodeOf .assignment
    [target.withRole .left, equals, (← self (.assignment context)).withRole .right]

/-- A condition that something may be assigned to. -/
def assignmentChain (context : Context) : Parser Node := do
  let left ← conditional self context
  (do
    require (isAssignable left.kind)
    (do
      let equals ← markNot "=" ['=', '>']
      return nodeOf .assignment
        [left.withRole .left, equals, (← self (.assignment context)).withRole .right])
    <|> do
      let token ← markOf augmentedMarks
      return nodeOf .augmentedAssignment
        [left.withRole .left, token, (← self (.assignment context)).withRole .right])
  <|> pure left

def assignment (context : Context) : Parser Node := do
  match ← peek with
  | some '(' => arrowFunction self context <|> assignmentChain self context
  | some '<' => arrowFunction self context <|> assignmentChain self context
  | some '{' | some '[' => patternAssignment self context <|> assignmentChain self context
  | some _ =>
    match ← peekWord with
    | "" => assignmentChain self context
    | "yield" => yieldExpression self context
    | _ => arrowFunction self context <|> assignmentChain self context
  | none => failure

/-- Expressions with commas between them. -/
def expression : Parser Node := do
  let first ← self (.assignment {})
  let more ← manyNodes do return [← mark ",", ← self (.assignment {})]
  if more.isEmpty then return first
  return nodeOf .sequence (first :: more)

end

end JsxAudit.Syntax.Parser
