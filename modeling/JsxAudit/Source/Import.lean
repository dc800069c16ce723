import JsxAudit.Source.File

/-!
What a file imports and exports at its top level.
-/

namespace JsxAudit.Source

open Syntax

/-- A local name that an import statement binds. -/
structure ImportBinding where
  module : String
  name : String
  /-- `default` for the default export, `*` for the whole module, else the exported name. -/
  imported : String
  deriving DecidableEq, Repr

/-- Quotation marks of either kind. -/
def isQuote (c : Char) : Bool :=
  c == '"' || c == Char.ofNat 39

namespace SourceFile

variable (f : SourceFile)

def importStatements : List Node :=
  f.root.namedChildren.filter (·.kind = .importStatement)

/-- The module that an import statement names. -/
def importedModule? (statement : Node) : Option String :=
  (statement.child? .source).bind f.stringValue?

/-- The binding of one name in a list of imports. -/
def specifierBinding? (module : String) (specifier : Node) : Option ImportBinding := do
  let name ← specifier.child? .name
  let imported := Text.trimMatching isQuote (f.nodeText name)
  return ⟨module, ((specifier.child? .alias).map f.nodeText).getD imported, imported⟩

/-- The bindings of one part of an import clause. -/
def clauseBindings (module : String) (part : Node) : List ImportBinding :=
  match part.kind with
  | .identifier => [⟨module, f.nodeText part, "default"⟩]
  | .namespaceImport =>
    (part.namedChildren.filter (·.kind = .identifier)).map fun n => ⟨module, f.nodeText n, "*"⟩
  | .namedImports =>
    (part.namedChildren.filter (·.kind = .importSpecifier)).filterMap
      (f.specifierBinding? module)
  | _ => []

def statementBindings (statement : Node) : List ImportBinding :=
  match statement.child? .source with
  | none => []
  | some source =>
    let module := (f.stringValue? source).getD ""
    (statement.namedChildren.filter (·.kind = .importClause)).flatMap fun clause =>
      clause.namedChildren.flatMap (f.clauseBindings module)

/-- Local names bound by the import statements, in order. -/
def imports : List ImportBinding :=
  f.importStatements.flatMap f.statementBindings

def importsFrom (module : String) : List ImportBinding :=
  f.imports.filter (·.module = module)

def hasImportFrom (module : String) : Bool :=
  f.importStatements.any fun s => f.importedModule? s = some module

def lastImport? : Option Node :=
  f.importStatements.getLast?

/-- Local name of the default export of a module, or of its export `name`. -/
def localDefault? (module name : String) : Option String :=
  ((f.importsFrom module).find? fun b => b.imported = "default" || b.imported = name).map
    (·.name)

def exportStatements : List Node :=
  f.root.namedChildren.filter (·.kind = .exportStatement)

/-- Declarations that the file exports where it makes them. -/
def exportedDeclarations : List Node :=
  f.exportStatements.filterMap (·.child? .declaration)

end SourceFile

/-- Declarations of variables. -/
def isVariableDeclaration (k : Kind) : Bool :=
  k = .lexicalDeclaration || k = .variableDeclaration

end JsxAudit.Source
