import JsxAudit.Rule.Basic
import JsxAudit.Text.Word

/-!
Rules about pages: a page has a title, a document has a language, and a layout has a link that
skips the navigation.
-/

namespace JsxAudit.Rule

open Source Audit Label Syntax

/-! ### Titles -/

/-- The path is that of a page. -/
def isPagePath (path : String) : Bool :=
  Text.endsAtWordEdge ["page.tsx", "page.jsx", "page.ts", "page.js"] path

/-- Expressions that only say something about the type of another one, or group it. -/
def isWrapper (k : Kind) : Bool :=
  k = .satisfiesExpression || k = .asExpression || k = .parenthesized

/-- The variables that exported declarations declare. -/
def exportedVariables (f : SourceFile) : List Node :=
  (f.exportedDeclarations.filter fun d => isVariableDeclaration d.kind).flatMap fun d =>
    d.namedChildren.filter (·.kind = .variableDeclarator)

/-- The name of a declaration or a variable is this one. -/
def isNamed (f : SourceFile) (name : String) (n : Node) : Bool :=
  (n.child? .name).any fun m => f.nodeText m = name

/-- The object that an exported variable `metadata` is set to. -/
def metadataObject? (f : SourceFile) : Option Node :=
  (exportedVariables f).findSome? fun v => do
    let value ← v.child? .value
    let inner := value.unwrapThrough isWrapper
    if isNamed f "metadata" v && inner.kind = .object then some inner else none

/-- A part of the metadata that sets the title. -/
def isTitle (f : SourceFile) (part : Node) : Bool :=
  match part.kind with
  | .pair => (part.child? .key).any fun key =>
      Text.trimMatching isQuote (f.nodeText key) = "title"
  | .shorthandProperty => f.nodeText part = "title"
  | _ => false

def hasTitle (f : SourceFile) : Bool :=
  (metadataObject? f).any fun metadata => metadata.namedChildren.any (isTitle f)

/-- The file exports a function or a variable that makes the metadata. -/
def exportsGenerator (f : SourceFile) : Bool :=
  (f.exportedDeclarations.any fun d =>
    d.kind = .functionDeclaration && isNamed f "generateMetadata" d) ||
    (exportedVariables f).any (isNamed f "generateMetadata")

def metadataTitle : Rule where
  id := "next-metadata-title"
  type := .ai
  description := "Pages must export metadata with a title"
  scan _ f :=
    if !isPagePath f.slashPath || hasTitle f || exportsGenerator f then []
    else
      let context := PageContext.of f
      let value := FixValue.deferredOf "page-title"
        [("route", context.route), ("component", some context.component)]
      [fileViolation "next-metadata-title" f "page"
        "Page is missing metadata.title; the Next.js route announcer will be silent"
        (some ⟨.insertMetadata, value, some "title"⟩)]

/-! ### Language -/

/-- The path is that of a file that can hold the root of the document. -/
def isRootDocument (path : String) : Bool :=
  let path := Text.withSlashes path
  Text.contains "layout" path || Text.contains "_document" path

def htmlLang : Rule where
  id := "html-lang"
  type := .deterministic
  description := "<html> must have a lang attribute"
  scan settings f :=
    if !isRootDocument f.path then []
    else
      let lang := match baseLocale settings.locale with
        | "" => "en"
        | lang => lang
      ((f.elementsTagged ["html"]).filter (!·.hasAttribute "lang")).map fun e =>
        violationAt "html-lang" e
          ("The <html> element must have a " ++ String.singleton (Char.ofNat 96) ++ "lang" ++
            String.singleton (Char.ofNat 96) ++ " attribute for accessibility (WCAG 3.1.1).")
          (some ⟨.insertAttr, .literal lang, some "lang"⟩) (some "<html>")

/-! ### Skip links -/

/-- The path is that of a layout. -/
def isLayoutPath (path : String) : Bool :=
  Text.endsAtWordEdge ["layout.tsx", "layout.jsx"] path

/-- The anchor leads to the main content, or says that it skips something. -/
def isSkipLink (e : Element) : Bool :=
  literal? e "href" = some "#main-content" ||
    (!e.isSelfClosing && Text.occursIgnoringCase "skip".toList
      (" ".intercalate (e.children.map fun s => e.file.nodeText s.node)).toList)

def skipNav : Rule where
  id := "next-skip-nav"
  type := .detect
  description := "Root layout should include a skip navigation link"
  scan _ f :=
    if !isLayoutPath f.slashPath || (f.elementsTagged ["a"]).any isSkipLink then []
    else [fileViolation "next-skip-nav" f "layout" "Root layout is missing a skip navigation link"
      none]

end JsxAudit.Rule
