import JsxAudit.Syntax.Grammar.Expression

/-!
Statements, declarations, imports and exports.
-/

namespace JsxAudit.Syntax.Parser

section

variable (self : Goal → Parser Node)

/-- A node whose last part is the end of a statement. It stops where the cursor is. -/
def finished (kind : Kind) (children : List Node) : Parser Node := do
  nodeToHere kind (children ++ (← statementEnd))

/-! ### Variables, functions and classes -/

/-- A variable with its type and value. One that is said to get its value later has a type and no
value. -/
def declarator (context : Context) : Parser Node := do
  let name ← self .pattern
  require (name.kind ≠ .restPattern)
  (do
    require (name.kind = .identifier)
    return nodeOf .variableDeclarator [name.withRole .name, ← mark "!", ← typeMark self])
  <|> do
    let typed ← optionalNodes do return [← typeMark self]
    let value ← optionalNodes do
      let equals ← markNot "=" ['=', '>']
      return [equals, (← self (.assignment context)).withRole .value]
    return nodeOf .variableDeclarator (name.withRole .name :: typed ++ value)

/-- The word and the variables of a declaration, and its kind. -/
def declarators (context : Context) : Parser (Kind × List Node) := do
  let word ← keywordOf ["const", "let", "var"]
  let first ← declarator self context
  let more ← manyNodes do return [← mark ",", ← declarator self context]
  let kind : Kind := if word.kind = .token "var" then .variableDeclaration else .lexicalDeclaration
  return (kind, word :: first :: more)

def variableDeclaration : Parser Node := do
  let (kind, nodes) ← declarators self {}
  finished kind nodes

/-- A function with a name. Without a body it only declares its signature. -/
def functionDeclaration : Parser Node := do
  let async ← asyncWord
  let word ← keyword "function"
  let star ← optionalNodes do return [← mark "*"]
  let name ← nameNode .identifier
  let head ← functionHead self
  let nodes := async ++ [word] ++ star ++ [name.withRole .name] ++ head
  let kind : Kind := if star.isEmpty then .functionDeclaration else .generatorFunctionDeclaration
  (do return nodeOf kind (nodes ++ [← functionBody self])) <|> finished .functionSignature nodes

def classDeclaration : Parser Node := do
  let decorators ← manyNodes do return [← decorator self]
  let abstract ← optionalNodes do return [← keyword "abstract"]
  let word ← keyword "class"
  let tail ← classTail self true
  let kind : Kind := if abstract.isEmpty then .classDeclaration else .abstractClassDeclaration
  return nodeOf kind (decorators ++ abstract ++ [word] ++ tail)

/-! ### Types and modules -/

def typeAlias : Parser Node := do
  let word ← keyword "type"
  let name ← nameNode .typeIdentifier
  let generics ← optionalTypeParameters self
  let equals ← mark "="
  finished .typeAlias ([word, name.withRole .name] ++ generics ++ [equals, ← self .type])

def interfaceDeclaration : Parser Node := do
  let word ← keyword "interface"
  let name ← nameNode .typeIdentifier
  let generics ← optionalTypeParameters self
  let parents ← optionalNodes do
    let word ← keyword "extends"
    return word :: (← sepBy "," (self .type))
  return nodeOf .interfaceDeclaration
    ([word, name.withRole .name] ++ generics ++ parents ++ [(← objectType self).withRole .body])

def enumDeclaration : Parser Node := do
  let const ← optionalNodes do return [← keyword "const"]
  let word ← keyword "enum"
  let name ← nameNode .identifier
  let body ← enclosed .enumBody "\x7b" "\x7d" do
    let name ← propertyName self
    let value ← optionalNodes (initializer self)
    if value.isEmpty then return name
    return nodeOf .assignment (name.withRole .name :: value)
  return nodeOf .enumDeclaration (const ++ [word, name.withRole .name, body.withRole .body])

/-- A name, possibly behind the names of what holds it. -/
def qualifiedName : Parser Node := do
  let first ← nameExcept .identifier ["in", "instanceof", "as", "satisfies"]
  let more ← manyNodes do return [← mark ".", ← nameNode .identifier]
  return if more.isEmpty then first else nodeOf .member (first :: more)

/-- A name space, or a module by its path, with or without a body. -/
def moduleDeclaration : Parser Node := do
  let word ← keywordOf ["namespace", "module"]
  require !(← lineBreakAhead)
  let name ← stringLiteral <|> qualifiedName
  let body ← optionalNodes do return [(← self .block).withRole .body]
  return nodeOf .moduleDeclaration (word :: name.withRole .name :: body)

/-- A short name for what a name space holds. -/
def importAlias : Parser Node := do
  let word ← keyword "import"
  let name ← nameNode .identifier
  let equals ← mark "="
  finished .importAlias [word, name.withRole .name, equals, ← qualifiedName]

/-- Words that begin a declaration. -/
def declarationWords : List String :=
  ["const", "let", "var", "function", "async", "class", "abstract", "type", "interface", "enum",
    "namespace", "module", "import", "declare"]

/-- A declaration of something that is defined elsewhere. -/
def ambientDeclaration : Parser Node := do
  let word ← keyword "declare"
  match ← peekWord with
  | "global" =>
    let name ← keyword "global"
    return nodeOf .ambientDeclaration [word, name, ← self .block]
  | next =>
    require (declarationWords.contains next || (← peek) == some '@')
    return nodeOf .ambientDeclaration [word, ← self .statement]

/-- The declarations that a statement or an export can be. -/
def declaration : Parser Node := do
  match ← peekWord with
  | "const" => enumDeclaration self <|> variableDeclaration self
  | "let" | "var" => variableDeclaration self
  | "function" | "async" => functionDeclaration self
  | "class" | "abstract" => classDeclaration self
  | "type" => typeAlias self
  | "interface" => interfaceDeclaration self
  | "enum" => enumDeclaration self
  | "namespace" | "module" => moduleDeclaration self
  | "import" => importAlias
  | "declare" => ambientDeclaration self
  | _ => do
    require ((← peek) == some '@')
    classDeclaration self

/-! ### Imports -/

/-- A name that a module exports, which may be any word or a string. -/
def moduleName : Parser Node :=
  nameNode .identifier <|> stringLiteral

/-- One name of a list of imports or exports, possibly under another name. -/
def specifier (kind : Kind) : Parser Node := do
  let plain : Parser (List Node) := do
    let name ← moduleName
    let rename ← optionalNodes do
      return [← keyword "as", (← moduleName).withRole .alias]
    require ([some ',', some '}'].contains (← peek))
    return name.withRole .name :: rename
  let nodes ← plain <|> do
    let word ← keywordOf ["type", "typeof"]
    return word :: (← plain)
  return nodeOf kind nodes

def namespaceImport : Parser Node := do
  return nodeOf .namespaceImport [← mark "*", ← keyword "as", ← nameNode .identifier]

/-- Specifiers between braces. A comma may come last, even behind none of them. -/
def specifierList (kind : Kind) (item : Parser Node) : Parser Node :=
  between kind "\x7b" "\x7d" (sepEndBy "," item <|> optionalNodes do return [← mark ","])

def namedImports : Parser Node :=
  specifierList .namedImports (specifier .importSpecifier)

def importClause : Parser Node :=
  (do return nodeOf .importClause [← namespaceImport <|> namedImports])
  <|> do
    let name ← nameNode .identifier
    let more ← optionalNodes do return [← mark ",", ← namespaceImport <|> namedImports]
    return nodeOf .importClause (name :: more)

/-- The module a statement refers to. -/
def fromClause : Parser (List Node) := do
  return [← keyword "from", (← stringLiteral).withRole .source]

/-- How a module is to be loaded. -/
def importAttributes : Parser (List Node) :=
  optionalNodes do
    require !(← lineBreakAhead)
    return [← keywordOf ["with", "assert"], ← object self]

def importStatement : Parser Node := do
  let word ← keyword "import"
  let clause ←
    (do return [(← stringLiteral).withRole .source])
    <|> (do
      let clause ← importClause
      return clause :: (← fromClause))
    <|> (do
      let marker ← keywordOf ["type", "typeof"]
      let clause ← importClause
      return marker :: clause :: (← fromClause))
    <|> (do
      let marker ← optionalNodes do return [← keyword "type"]
      let name ← nameNode .identifier
      let equals ← mark "="
      let require ← keyword "require"
      let opening ← mark "("
      let path ← stringLiteral
      return marker ++ [nodeOf .importRequire
        [name, equals, require, opening, path.withRole .source, ← mark ")"]])
  finished .importStatement (word :: clause ++ (← importAttributes self))

/-! ### Exports -/

/-- What follows the words `export default`. -/
def exportedDefault : Parser (List Node) :=
  (do return [(← declaration self).withRole .declaration])
  <|> do
    let value ← self (.assignment {})
    return value.withRole .value :: (← statementEnd)

def exportClause : Parser Node :=
  specifierList .exportClause (specifier .exportSpecifier)

def exportStatement : Parser Node := do
  let decorators ← manyNodes do return [← decorator self]
  let word ← keyword "export"
  let nodes ←
    (do
      let marker ← optionalNodes do return [← keyword "type"]
      let clause ← exportClause
      let source ← optionalNodes fromClause
      return marker ++ [clause] ++ source ++ (← importAttributes self) ++ (← statementEnd))
    <|> (do
      let marker ← optionalNodes do return [← keyword "type"]
      let star ← mark "*"
      let name ← optionalNodes do
        return [nodeOf .namespaceExport [star, ← keyword "as", ← moduleName]]
      let subject := if name.isEmpty then [star] else name
      let source ← fromClause
      return marker ++ subject ++ source ++ (← importAttributes self) ++ (← statementEnd))
    <|> (do
      let marker ← keyword "default"
      return marker :: (← exportedDefault self))
    <|> (do
      let equals ← markNot "=" ['=', '>']
      return [equals, ← self .expression] ++ (← statementEnd))
    <|> (do
      let as ← keyword "as"
      return [as, ← keyword "namespace", ← nameNode .identifier] ++ (← statementEnd))
    <|> (do return [(← declaration self).withRole .declaration])
  nodeToHere .exportStatement (decorators ++ word :: nodes)

/-! ### Control flow -/

def parenthesizedCondition : Parser Node := do
  return nodeOf .parenthesized [← mark "(", ← self .expression, ← mark ")"]

def ifStatement : Parser Node := do
  let word ← keyword "if"
  let condition ← parenthesizedCondition self
  let yes ← self .statement
  let no ← optionalNodes do
    return [nodeOf .elseClause [← keyword "else", ← self .statement]]
  return nodeOf .ifStatement ([word, condition, yes] ++ no)

def switchStatement : Parser Node := do
  let word ← keyword "switch"
  let subject ← parenthesizedCondition self
  let opening ← mark "\x7b"
  let statements : Parser (List Node) := many do
    require !(["case", "default"].contains (← peekWord))
    self .statement
  let cases ← many do
    (do
      let word ← keyword "case"
      let value ← self .expression
      let colon ← mark ":"
      return nodeOf .switchCase ([word, value, colon] ++ (← statements)))
    <|> do
      let word ← keyword "default"
      let colon ← mark ":"
      return nodeOf .switchDefault ([word, colon] ++ (← statements))
  let closing ← mark "\x7d"
  return nodeOf .switchStatement
    [word, subject, nodeOf .switchBody (opening :: cases ++ [closing])]

/-- A loop over what `of` or `in` names. -/
def forInStatement : Parser Node := do
  let word ← keyword "for"
  let await ← optionalNodes do return [← keyword "await"]
  let opening ← mark "("
  let target ←
    (do
      let kind ← keywordOf ["const", "let", "var"]
      return [kind, (← self .pattern).withRole .left])
    <|> do return [(← self .pattern <|> self .unary).withRole .left]
  let link ← keywordOf ["of", "in"]
  let subject ← self .expression
  let closing ← mark ")"
  let body ← self .statement
  return nodeOf .forInStatement ([word] ++ await ++ [opening] ++ target ++
    [link, subject.withRole .right, closing, body.withRole .body])

def forStatement : Parser Node := do
  let word ← keyword "for"
  let opening ← mark "("
  let first ← optionalNodes do
    (do
      let (kind, nodes) ← declarators self { noIn := true }
      return [nodeOf kind nodes])
    <|> do return [← self .expression]
  let semicolon ← mark ";"
  let condition ← optionalNodes do return [← self .expression]
  let semicolon' ← mark ";"
  let step ← optionalNodes do return [← self .expression]
  let closing ← mark ")"
  let body ← self .statement
  return nodeOf .forStatement ([word, opening] ++ first ++ [semicolon] ++ condition ++
    [semicolon'] ++ step ++ [closing, body.withRole .body])

def whileStatement : Parser Node := do
  let word ← keyword "while"
  let condition ← parenthesizedCondition self
  return nodeOf .whileStatement [word, condition, (← self .statement).withRole .body]

def doStatement : Parser Node := do
  let word ← keyword "do"
  let body ← self .statement
  let while' ← keyword "while"
  let condition ← parenthesizedCondition self
  let stop ← optionalNodes do return [← mark ";"]
  return nodeOf .doStatement ([word, body.withRole .body, while', condition] ++ stop)

def tryStatement : Parser Node := do
  let word ← keyword "try"
  let body ← self .block
  let handler ← optionalNodes do
    let word ← keyword "catch"
    let parameter ← optionalNodes do
      let opening ← mark "("
      let name ← self .pattern
      let typed ← optionalNodes do return [← typeMark self]
      return [opening, name.withRole .parameter] ++ typed ++ [← mark ")"]
    return [nodeOf .catchClause (word :: parameter ++ [← self .block])]
  let last ← optionalNodes do
    return [nodeOf .finallyClause [← keyword "finally", ← self .block]]
  return nodeOf .tryStatement ([word, body] ++ handler ++ last)

/-- A value may follow on the same line, or on the next one if it cannot begin a statement. -/
def returnStatement : Parser Node := do
  let word ← keyword "return"
  finished .returnStatement [word] <|> do finished .returnStatement [word, ← self .expression]

def throwStatement : Parser Node := do
  let word ← keyword "throw"
  finished .throwStatement [word, ← self .expression]

/-- A word that a label may follow on the same line. -/
def jumpStatement (spelling : String) (kind : Kind) : Parser Node := do
  let word ← keyword spelling
  let label ← optionalNodes do
    require !(← lineBreakAhead)
    return [← nameNode .statementIdentifier]
  finished kind (word :: label)

/-! ### Statements -/

def block : Parser Node := do
  let opening ← mark "\x7b"
  let statements ← many (self .statement)
  return nodeOf .statementBlock (opening :: statements ++ [← mark "\x7d"])

def labeledStatement : Parser Node := do
  let label ← nameNode .statementIdentifier
  let colon ← mark ":"
  return nodeOf .labeledStatement [label, colon, ← self .statement]

def expressionStatement : Parser Node := do
  let value ← self .expression
  finished .expressionStatement [value]

/-- Statements that a word begins. -/
def wordStatement (word : String) : Parser Node :=
  match word with
  | "if" => ifStatement self
  | "for" => forInStatement self <|> forStatement self
  | "while" => whileStatement self
  | "do" => doStatement self
  | "switch" => switchStatement self
  | "try" => tryStatement self
  | "return" => returnStatement self
  | "throw" => throwStatement self
  | "break" => jumpStatement "break" .breakStatement
  | "continue" => jumpStatement "continue" .continueStatement
  | "debugger" => do finished .debuggerStatement [← keyword "debugger"]
  | "with" => do
    let word ← keyword "with"
    let subject ← parenthesizedCondition self
    return nodeOf .withStatement [word, subject, ← self .statement]
  | "import" => importStatement self <|> importAlias <|> expressionStatement self
  | "export" => exportStatement self <|> labeledStatement self <|> expressionStatement self
  | "function" | "class" | "const" | "var" | "interface" | "enum" | "abstract" => declaration self
  | "async" | "let" | "type" | "declare" | "namespace" | "module" =>
    declaration self <|> labeledStatement self <|> expressionStatement self
  | _ => labeledStatement self <|> expressionStatement self

def statement : Parser Node := do
  match ← peek with
  | some '{' => block self
  | some ';' => do return nodeOf .emptyStatement [← mark ";"]
  | some '@' => exportStatement self <|> classDeclaration self
  | some _ =>
    match ← peekWord with
    | "" => expressionStatement self
    | word => wordStatement self word
  | none => failure

end

end JsxAudit.Syntax.Parser
