/-!
The kinds of syntax nodes and the roles that a child plays in its parent.

A token is a node as well: a keyword or a mark, known by its spelling. Every other kind is a named
node.
-/

namespace JsxAudit.Syntax

inductive Kind where
  /-- A keyword or a mark, by its spelling. -/
  | token (spelling : String)
  | program | comment | htmlComment | hashBang
  -- statements
  | expressionStatement | emptyStatement | statementBlock | ifStatement | elseClause
  | switchStatement | switchBody | switchCase | switchDefault
  | forStatement | forInStatement | whileStatement | doStatement
  | tryStatement | catchClause | finallyClause
  | returnStatement | throwStatement | breakStatement | continueStatement | debuggerStatement
  | labeledStatement | withStatement
  | lexicalDeclaration | variableDeclaration | variableDeclarator
  | functionDeclaration | generatorFunctionDeclaration | functionSignature
  | classDeclaration | abstractClassDeclaration | classBody | classHeritage
  | methodDefinition | fieldDefinition | staticBlock | decorator
  | importStatement | importClause | namespaceImport | namedImports | importSpecifier
  | importRequire | importAlias
  | exportStatement | exportClause | exportSpecifier | namespaceExport
  | typeAlias | interfaceDeclaration | enumDeclaration | enumBody | ambientDeclaration
  | moduleDeclaration
  -- names and literals
  | identifier | propertyIdentifier | privateIdentifier | statementIdentifier | typeIdentifier
  | shorthandProperty | shorthandPattern
  | number | string | stringFragment | escapeSequence | templateString | templateSubstitution
  | regex | regexPattern | regexFlags | trueLiteral | falseLiteral | nullLiteral
  | undefinedLiteral | thisKeyword | superKeyword
  -- expressions
  | array | object | pair | spreadElement | computedName | parenthesized | sequence
  | arrowFunction | functionExpression | generatorFunction | classExpression
  | call | arguments | new | member | subscript | optionalChain | metaProperty | importKeyword
  | assignment | augmentedAssignment | ternary | binary | unary | update | await | yield
  | asExpression | satisfiesExpression | nonNull | instantiation
  -- patterns and parameters
  | objectPattern | arrayPattern | assignmentPattern | objectAssignmentPattern | pairPattern
  | restPattern | formalParameters | requiredParameter | optionalParameter
  -- elements
  | jsxElement | jsxSelfClosing | jsxOpening | jsxClosing | jsxAttribute | jsxText
  | jsxExpression | jsxNamespaceName | characterReference
  -- types
  | typeMark | typeArguments | typeParameters | typeParameter | typeExpression | typeMember
  deriving DecidableEq, Repr

/-- Tokens are the only nodes without a name of their own. -/
def Kind.isNamed : Kind → Bool
  | .token _ => false
  | _ => true

/-- What a child is to its parent, where the parent has several children of different use. -/
inductive Role where
  | name | value | source | alias | declaration | body | parameter | parameters | pattern
  | left | right | key | object | property | callee | arguments | openTag | closeTag
  | condition | consequence | alternative
  deriving DecidableEq, Repr

end JsxAudit.Syntax
