import JsxAudit.Syntax.Node

/-!
Reading a source text from left to right.

A `Parser` reads from a `Cursor`, the characters that are left with the byte offset of the first of
them, and either fails or moves the cursor on. Alternatives start again from the same cursor.
Between tokens stand spaces and comments; the comments passed so far are kept, and take their place
in the tree when it is complete.

A statement may end without a semicolon before a closing brace, at the end of the text, or before a
line break whose next line cannot continue it.
-/

namespace JsxAudit.Syntax

structure Cursor where
  rest : List Char
  pos : Nat
  /-- At least the number of characters left, a bound for every repetition. -/
  bound : Nat
  /-- Comments passed so far, the last one first. -/
  comments : List Node

abbrev Parser := StateT Cursor Option

/-! ### Characters -/

/-- Spaces and line ends between tokens. -/
def isSpace (c : Char) : Bool :=
  let n := c.toNat
  (0x09 ≤ n && n ≤ 0x0D) || n == 0x20 || n == 0x85 || n == 0xA0 || n == 0x1680 ||
    (0x2000 ≤ n && n ≤ 0x200B) || n == 0x2028 || n == 0x2029 || n == 0x202F || n == 0x205F ||
    n == 0x2060 || n == 0x3000 || n == 0xFEFF

/-- Marks that end a name. -/
def isMark (c : Char) : Bool :=
  ":;\"@#.,|^&<=>+-*/\\%?!~()[]\x7b\x7d".toList.contains c || c == Char.ofNat 39 ||
    c == Char.ofNat 96

/-- Characters that a name may contain. -/
def isNameChar (c : Char) : Bool :=
  0x20 ≤ c.toNat && !isSpace c && !isMark c

/-- Characters that a name may begin with. -/
def isNameStart (c : Char) : Bool :=
  isNameChar c && !c.isDigit

/-- A line comment ends before these. -/
def endsLine (c : Char) : Bool :=
  c == '\n' || c == '\r' || c.toNat == 0x2028 || c.toNat == 0x2029

/-- Number of bytes of the characters. -/
def byteCount (cs : List Char) : Nat :=
  cs.foldl (fun n c => n + c.utf8Size) 0

/-- The cursor behind the characters `taken` from the front. -/
def Cursor.skip (c : Cursor) (taken : List Char) : Cursor :=
  { c with rest := c.rest.drop taken.length, pos := c.pos + byteCount taken }

/-! ### Comments -/

/-- The characters of a block comment after its opening, the closing mark included. -/
def blockCommentTail : List Char → Option (List Char)
  | [] => none
  | '*' :: '/' :: _ => some ['*', '/']
  | c :: rest => (blockCommentTail rest).map (c :: ·)

/-- The comment at the front. -/
def commentAt? : List Char → Option (List Char)
  | '/' :: '/' :: rest => some ('/' :: '/' :: rest.takeWhile fun c => !endsLine c)
  | '/' :: '*' :: rest => (blockCommentTail rest).map fun tail => '/' :: '*' :: tail
  | _ => none

def Cursor.skipComment (c : Cursor) (taken : List Char) : Cursor :=
  let after := c.skip taken
  { after with comments := .mk .comment none c.pos after.pos [] :: c.comments }

/-- A line break lies within the first `count` bytes. -/
def breaksWithin (count : Nat) : List Char → Bool
  | [] => false
  | c :: rest => 0 < count && (c == '\n' || breaksWithin (count - c.utf8Size) rest)

/-- The cursor behind the spaces and comments at the front, at most `fuel` of them. -/
def Cursor.skipTrivia (c : Cursor) : Nat → Cursor
  | 0 => c
  | fuel + 1 =>
    match c.rest with
    | [] => c
    | x :: _ =>
      if isSpace x then (c.skip [x]).skipTrivia fuel
      else match commentAt? c.rest with
        | some taken => (c.skipComment taken).skipTrivia fuel
        | none => c

def Cursor.trivia (c : Cursor) : Cursor :=
  c.skipTrivia c.bound

namespace Parser

variable {α : Type}

/-! ### Elementary parsers -/

def cursor : Parser Cursor := get

/-- Pass the spaces and comments at the front. -/
def trivia : Parser Unit :=
  modify Cursor.trivia

/-- Fail if the condition does not hold. -/
def require (b : Bool) : Parser Unit :=
  if b then pure () else failure

/-- The parser, or nothing. -/
def optional? (p : Parser α) : Parser (Option α) :=
  (do return some (← p)) <|> pure none

/-- The parser's nodes, or none. -/
def optionalNodes (p : Parser (List Node)) : Parser (List Node) :=
  p <|> pure []

/-- The parser as often as it succeeds and moves on, at most `fuel` times. -/
def manyUpTo (p : Parser α) : Nat → Parser (List α)
  | 0 => pure []
  | fuel + 1 => fun c =>
    match p c with
    | none => some ([], c)
    | some (a, c') =>
      if c.pos < c'.pos then
        (do return a :: (← manyUpTo p fuel)) c'
      else some ([], c)

/-- The parser as often as it succeeds. -/
def many (p : Parser α) : Parser (List α) := do
  manyUpTo p (← cursor).bound

/-- Nodes of all runs of the parser. -/
def manyNodes (p : Parser (List Node)) : Parser (List Node) := do
  return (← many p).flatten

/-- A node continued by as many steps as there are, at most `fuel`. -/
def chainFrom (step : Node → Parser Node) (subject : Node) : Nat → Parser Node
  | 0 => pure subject
  | fuel + 1 =>
    (do
      let longer ← step subject
      chainFrom step longer fuel) <|> pure subject

/-- Take these characters, which must stand here. -/
def chars (expected : List Char) : Parser Unit := fun c =>
  if expected.isPrefixOf c.rest then some ((), c.skip expected) else none

/-- A leaf of the tree from `start` up to the cursor. -/
def leafFrom (kind : Kind) (start : Nat) : Parser Node := do
  return .mk kind none start (← cursor).pos []

/-- A node around children, from the start of the first to the end of the last. -/
def nodeOf (kind : Kind) (children : List Node) : Node :=
  .mk kind none ((children.head?.map Node.start).getD 0)
    ((children.getLast?.map Node.stop).getD 0) children

/-- A node around children that stops at the cursor. -/
def nodeToHere (kind : Kind) (children : List Node) : Parser Node := do
  return .mk kind none ((children.head?.map Node.start).getD 0) (← cursor).pos children

/-- The mark at the cursor, without passing spaces before it. -/
def markHere (spelling : String) : Parser Node := do
  let start := (← cursor).pos
  chars spelling.toList
  leafFrom (.token spelling) start

/-- A mark behind spaces and comments. -/
def mark (spelling : String) : Parser Node := do
  trivia
  markHere spelling

/-- A mark that no character of `follow` continues. -/
def markNot (spelling : String) (follow : List Char) : Parser Node := do
  let node ← mark spelling
  match (← cursor).rest with
  | [] => return node
  | c :: _ =>
    require (!follow.contains c)
    return node

/-- The next character behind spaces and comments. -/
def peek : Parser (Option Char) := do
  return (← cursor).trivia.rest.head?

/-- The word behind spaces and comments, if one stands there. -/
def peekWord : Parser String := do
  let rest := (← cursor).trivia.rest
  match rest with
  | c :: _ =>
    return if isNameStart c then String.ofList (rest.takeWhile isNameChar) else ""
  | [] => return ""

/-- A keyword: the whole next word has this spelling. -/
def keyword (spelling : String) : Parser Node := do
  trivia
  let c ← cursor
  require (c.rest.takeWhile isNameChar == spelling.toList)
  markHere spelling

/-- One of several keywords. -/
def keywordOf : List String → Parser Node
  | [] => failure
  | spelling :: rest => keyword spelling <|> keywordOf rest

/-- One of several marks, the first that fits. -/
def markOf : List String → Parser Node
  | [] => failure
  | spelling :: rest => mark spelling <|> markOf rest

/-- A name of the given kind, which is none of the excluded words. -/
def nameExcept (kind : Kind) (excluded : List String) : Parser Node := do
  trivia
  let c ← cursor
  match c.rest with
  | first :: _ =>
    require (isNameStart first)
    let taken := c.rest.takeWhile isNameChar
    require (!excluded.contains (String.ofList taken))
    set (c.skip taken)
    leafFrom kind c.pos
  | [] => failure

def nameNode (kind : Kind) : Parser Node :=
  nameExcept kind []

/-- One or more runs of the parser with a mark between them. -/
def sepBy (sep : String) (p : Parser Node) : Parser (List Node) := do
  let first ← p
  let rest ← manyNodes do return [← mark sep, ← p]
  return first :: rest

/-- One or more runs of the parser with a mark between them; the mark may also come last. -/
def sepEndBy (sep : String) (p : Parser Node) : Parser (List Node) := do
  return (← sepBy sep p) ++ (← optionalNodes do return [← mark sep])

/-- Runs of the parser with marks between them, any of which may be left out. -/
def sepByHoles (sep : String) (p : Parser Node) : Parser (List Node) := do
  let first ← optionalNodes do return [← p]
  let rest ← manyNodes do
    let m ← mark sep
    return m :: (← optionalNodes do return [← p])
  return first ++ rest

/-- A line break stands between the cursor and the next token. -/
def lineBreakAhead : Parser Bool := do
  let c ← cursor
  return breaksWithin (c.trivia.pos - c.pos) c.rest

/-! ### Ends of statements -/

/-- What the first token of a new line may be for a statement to end before it. -/
def opensStatement : List Char → Bool
  | [] => true
  | '+' :: rest => rest.head? == some '+'
  | '-' :: rest => rest.head? == some '-'
  | '!' :: rest => rest.head? != some '='
  | '.' :: _ | ',' :: _ | ';' :: _ | ':' :: _ | '*' :: _ | '%' :: _ | '<' :: _ | '>' :: _
  | '=' :: _ | '?' :: _ | '^' :: _ | '|' :: _ | '&' :: _ | '/' :: _ => false
  | c :: rest =>
    let word := String.ofList ((c :: rest).takeWhile isNameChar)
    c != Char.ofNat 96 && word != "in" && word != "instanceof"

/-- A statement ends at the cursor without a semicolon. Comments on the same line belong to it. -/
def impliedEnd : Nat → Parser Unit
  | 0 => failure
  | fuel + 1 => do
    let c ← cursor
    let spaces := c.rest.takeWhile fun x => isSpace x && x != '\n'
    match c.rest.drop spaces.length with
    | [] => pure ()
    | '}' :: _ => pure ()
    | '\n' :: _ => require (opensStatement c.trivia.rest)
    | next =>
      match commentAt? next with
      | some taken =>
        set ((c.skip spaces).skipComment taken)
        impliedEnd fuel
      | none => failure

/-- The end of a statement: a semicolon, or nothing where it may be left out. -/
def statementEnd : Parser (List Node) :=
  (do return [← mark ";"]) <|> do
    impliedEnd ((← cursor).bound + 1)
    return []

end Parser

end JsxAudit.Syntax
