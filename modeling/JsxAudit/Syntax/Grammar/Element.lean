import JsxAudit.Syntax.Grammar.Types

/-!
Elements: tags with attributes, and what stands between an opening and a closing tag.

Text between tags runs up to the next mark of the markup. White space that only breaks lines is no
text. The names of the two tags of an element are not compared.
-/

namespace JsxAudit.Syntax.Parser

/-! ### Text -/

/-- Characters that end a run of text. -/
def endsText (c : Char) : Bool :=
  c == '<' || c == '>' || c == '{' || c == '}' || c == '&'

/-- White space of texts between tags. -/
def isTextSpace (c : Char) : Bool :=
  let n := c.toNat
  (0x09 ≤ n && n ≤ 0x0D) || n == 0x20 || n == 0x1680 || (0x2000 ≤ n && n ≤ 0x2006) ||
    (0x2008 ≤ n && n ≤ 0x200A) || n == 0x2028 || n == 0x2029 || n == 0x205F || n == 0x3000

/-- The run has something besides line breaks and the white space that follows one directly. -/
def hasText (afterBreak : Bool) : List Char → Bool
  | [] => false
  | c :: rest =>
    if c == '\n' then hasText true rest
    else if afterBreak && isTextSpace c then hasText true rest
    else true

/-- The characters of the character reference at the front. -/
def referenceRun : List Char → List Char
  | '&' :: '#' :: x :: rest =>
    if x == 'x' || x == 'X' then
      let run := rest.takeWhile isHexDigit
      if 1 ≤ run.length && run.length ≤ 6 && (rest.drop run.length).head? == some ';' then
        '&' :: '#' :: x :: run ++ [';']
      else []
    else
      let run := (x :: rest).takeWhile Char.isDigit
      if 1 ≤ run.length && run.length ≤ 5 && ((x :: rest).drop run.length).head? == some ';' then
        '&' :: '#' :: run ++ [';']
      else []
  | '&' :: rest =>
    let run := rest.takeWhile Char.isAlpha
    if 1 ≤ run.length && run.length ≤ 30 && (rest.drop run.length).head? == some ';' then
      '&' :: run ++ [';']
    else []
  | _ => []

def characterReference : Parser Node := do
  let c ← cursor
  match referenceRun c.rest with
  | [] => failure
  | run =>
    set (c.skip run)
    leafFrom .characterReference c.pos

/-- A comment that runs from its mark to the end of the line. -/
def markupComment : Parser Node := do
  let c ← cursor
  require ("<!--".toList.isPrefixOf c.rest)
  set (c.skip (c.rest.takeWhile fun x => !endsLine x || x == '\r'))
  leafFrom .htmlComment c.pos

/-- A run of text, which is a node only if it has text. -/
def textRun : Parser (List Node) := do
  let c ← cursor
  match c.rest.takeWhile fun x => !endsText x with
  | [] => failure
  | run =>
    set (c.skip run)
    if hasText false run then return [← leafFrom .jsxText c.pos]
    return []

/-! ### Quoted attribute values -/

/-- The characters of a quoted value up to a reference or the closing quote. An ampersand takes the
character behind it along, unless a reference begins there. -/
def quotedRun (quote : Char) : List Char → List Char
  | [] => []
  | '&' :: c :: rest =>
    if c == '#' || c.isAlpha then [] else '&' :: c :: quotedRun quote rest
  | c :: rest => if c == quote || c == '&' then [] else c :: quotedRun quote rest

def quotedFragment (quote : Char) : Parser Node := do
  let c ← cursor
  match quotedRun quote c.rest with
  | [] => failure
  | run =>
    set (c.skip run)
    leafFrom .stringFragment c.pos

def quotedBetween (quote : Char) : Parser Node := do
  let opening ← mark (String.singleton quote)
  let pieces ← many (quotedFragment quote <|> characterReference)
  let closing ← markHere (String.singleton quote)
  return nodeOf .string (opening :: pieces ++ [closing])

def quotedValue : Parser Node :=
  quotedBetween '"' <|> quotedBetween (Char.ofNat 39)

/-! ### Names -/

def isTagStart (c : Char) : Bool :=
  c.isAlpha || c == '_' || c == '$'

/-- The characters of a name in which hyphens join words. -/
def hyphenRun (cs : List Char) : List Char :=
  match cs with
  | c :: _ =>
    if isTagStart c then
      let head := cs.takeWhile fun x => isTagStart x || x.isDigit
      match cs.drop head.length with
      | '-' :: rest =>
        head ++ '-' :: rest.takeWhile fun x => isTagStart x || x.isDigit || x == '-'
      | _ => []
    else []
  | [] => []

/-- A name of a tag or an attribute. -/
def simpleName (kind : Kind) : Parser Node := do
  trivia
  let c ← cursor
  match hyphenRun c.rest with
  | [] => nameNode kind
  | run =>
    set (c.skip run)
    leafFrom kind c.pos

/-- A name with an optional second part behind a colon. -/
def namespacedName (kind : Kind) : Parser Node := do
  let first ← simpleName kind
  (do
    let colon ← mark ":"
    return nodeOf .jsxNamespaceName [first, colon, ← simpleName kind]) <|> pure first

/-- A tag name: a name, a namespaced name, or a chain of names behind dots. Where words are joined
by hyphens no dot follows. -/
def tagName : Parser Node := do
  let hyphenated := !(hyphenRun (← cursor).trivia.rest).isEmpty
  let first ← namespacedName .identifier
  if hyphenated || first.kind = .jsxNamespaceName then return first
  (← many do return (← mark ".", ← nameNode .propertyIdentifier)).foldlM
    (fun object (dot, name) => pure (nodeOf .member
      [object.withRole .object, dot, name.withRole .property])) first

section

variable (self : Goal → Parser Node)

/-! ### Attributes -/

def spread : Parser Node := do
  return nodeOf .spreadElement [← mark "...", ← self (.assignment {})]

/-- An expression between braces, which may be missing. -/
def embedded : Parser Node := do
  let opening ← mark "\x7b"
  let content ← optionalNodes do return [← spread self <|> self .expression]
  return nodeOf .jsxExpression (opening :: content ++ [← mark "\x7d"])

def attributeValue : Parser Node := do
  match ← peek with
  | some '{' => embedded self
  | some '<' => self .element
  | _ => quotedValue

def tagAttribute : Parser Node := do
  let name ← namespacedName .propertyIdentifier
  match ← optional? (mark "=") with
  | some equals => return nodeOf .jsxAttribute [name, equals, ← attributeValue self]
  | none => return nodeOf .jsxAttribute [name]

/-! ### Elements -/

/-- What follows the first mark of a tag that has a name: name, type arguments, attributes. -/
def tagContent : Parser (List Node) := do
  let name ← tagName
  let generics ← optionalNodes do return [← typeArguments self]
  let attributes ← many (embedded self <|> tagAttribute self)
  return name.withRole .name :: generics ++ attributes

/-- What stands between the tags of an element. -/
def elementContent : Parser (List Node) :=
  manyNodes do
    textRun <|> do
      match (← cursor).rest with
      | '<' :: '/' :: _ => failure
      | '<' :: '!' :: _ => return [← markupComment]
      | '<' :: _ => return [← self .element]
      | '{' :: _ => return [← embedded self]
      | '&' :: _ => return [← characterReference]
      | _ => failure

def closingTag : Parser Node := do
  let opening ← markHere "</"
  let name ← optionalNodes do return [(← tagName).withRole .name]
  return nodeOf .jsxClosing (opening :: name ++ [← mark ">"])

/-- An element: a tag closed in itself, or an opening tag with its content and a closing tag. -/
def element : Parser Node := do
  let less ← mark "<"
  let content ← optionalNodes (tagContent self)
  (do
    require !content.isEmpty
    let closing ← mark "/>"
    return nodeOf .jsxSelfClosing (less :: content ++ [closing]))
  <|> do
    let greater ← mark ">"
    let opening := nodeOf .jsxOpening (less :: content ++ [greater])
    let inner ← elementContent self
    let closing ← closingTag
    return nodeOf .jsxElement
      (opening.withRole .openTag :: inner ++ [closing.withRole .closeTag])

end

end JsxAudit.Syntax.Parser
