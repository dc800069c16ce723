import JsxAudit.Source.Element
import JsxAudit.Source.Import
import JsxAudit.Text.Casing

/-!
What a page is about: the component it exports, the route it is served under, and its headings.
-/

namespace JsxAudit.Source

open Syntax

structure PageContext where
  component : String
  route : Option String
  headings : List String
  deriving DecidableEq, Repr

namespace PageContext

/-! ### Routes -/

/-- What follows each segment `name` of a path, the first segment first. The path is looked at from
a place that begins a segment or not. -/
def afterSegments (name : List Char) (atStart : Bool) : List Char → List (List Char)
  | [] => []
  | c :: rest =>
    let later := afterSegments name (c = '/') rest
    if atStart && (name ++ ['/']).isPrefixOf (c :: rest) then
      (c :: rest).drop (name.length + 1) :: later
    else later

/-- Suffixes of files that can render a page. -/
def pageSuffixes : List String :=
  [".tsx", ".ts", ".jsx", ".js"]

/-- The characters before one of the endings. -/
def beforeEnding? (endings : List String) (cs : List Char) : Option (List Char) :=
  endings.findSome? fun ending =>
    if ending.toList.isSuffixOf cs then some (cs.take (cs.length - ending.length)) else none

/-- A path without the line break that may end it. -/
def withoutBreak (path : List Char) : List Char :=
  if path.getLast? = some '\n' then path.dropLast else path

/-- Something, and all on one line. -/
def isOneLine (cs : List Char) : Bool :=
  !cs.isEmpty && !cs.contains '\n'

/-- The final segment `index` stands for the directory it is in. -/
def dropIndex (cs : List Char) : List Char :=
  if cs = "index".toList then []
  else if "/index".toList.isSuffixOf cs then cs.take (cs.length - 6) else cs

/-- The route of a path: behind a segment `app` up to a page file, or behind a segment `pages` up
to the suffix. -/
def route? (path : String) : Option String :=
  let cs := withoutBreak (Text.withSlashes path).toList
  let behindApp := afterSegments "app".toList true cs
  let inApp := behindApp.findSome? fun rest =>
    (beforeEnding? (pageSuffixes.map ("/page" ++ ·)) rest).filter isOneLine
  let atRoot := behindApp.any fun rest => pageSuffixes.any fun s => ("page" ++ s).toList = rest
  let inPages := (afterSegments "pages".toList true cs).findSome? fun rest =>
    (beforeEnding? pageSuffixes rest).filter isOneLine
  match inApp with
  | some route => some (String.ofList ('/' :: route))
  | none =>
    if atRoot then some "/"
    else inPages.map fun route => String.ofList ('/' :: dropIndex route)

/-! ### Components -/

/-- What an export statement says about the component of the page. -/
inductive Export where
  | default (name : Option String)
  | function (name : String)
  | variable (name : String)
  | other

def Export.of (file : SourceFile) (statement : Node) : Export :=
  let declaration := statement.child? .declaration
  if statement.children.any (·.kind = .token "default") then
    match declaration.or (statement.child? .value) with
    | none => .default none
    | some target =>
      if target.kind = .identifier then .default (some (file.nodeText target))
      else .default ((target.child? .name).map file.nodeText)
  else
    match declaration with
    | none => .other
    | some d =>
      if d.kind = .functionDeclaration || d.kind = .generatorFunctionDeclaration then
        ((d.child? .name).map fun n => .function (file.nodeText n)).getD .other
      else if isVariableDeclaration d.kind then
        match d.namedChildren.find? (·.kind = .variableDeclarator) with
        | some v => ((v.child? .name).map fun n => .variable (file.nodeText n)).getD .other
        | none => .other
      else .other

/-- Name of the default export, else of the first exported function, else of the first exported
variable, else of the file. -/
def componentOf (file : SourceFile) : String :=
  let exports := file.exportStatements.map (Export.of file)
  let default := exports.findSome? fun
    | .default name => name
    | _ => none
  let function := exports.findSome? fun
    | .function name => some name
    | _ => none
  let variable' := exports.findSome? fun
    | .variable name => some name
    | _ => none
  ((default.or function).or variable').getD (Text.capitalize (Text.pathStem file.path))

/-! ### Headings -/

/-- The level of a heading tag. -/
def headingLevel? (tag : String) : Option Nat :=
  match tag.toList with
  | ['h', d] => if '1' ≤ d && d ≤ '6' then some (d.toNat - '0'.toNat) else none
  | _ => none

/-- Headings that have a text, with their tags. -/
def headingsOf (file : SourceFile) : List String :=
  file.elements.filterMap fun e =>
    let text := e.textContent
    if (headingLevel? e.tag).isSome && text != "" then some (e.tag ++ ": " ++ text) else none

def of (file : SourceFile) : PageContext :=
  { component := componentOf file
    route := route? file.path
    headings := headingsOf file }

end PageContext

end JsxAudit.Source
