import JsxAudit.Syntax.Cursor

/-!
Literals: numbers, strings, regular expressions, and the text pieces of templates.
-/

namespace JsxAudit.Syntax.Parser

/-! ### Numbers -/

/-- Digits accepted by `p` with single underscores between them, from the front. -/
def digitsOf (p : Char → Bool) : List Char → List Char
  | [] => []
  | '_' :: c :: rest => if p c then '_' :: c :: digitsOf p rest else []
  | c :: rest => if p c then c :: digitsOf p rest else []

/-- The same, but not beginning with an underscore. -/
def digitRun (p : Char → Bool) (cs : List Char) : List Char :=
  match cs with
  | c :: _ => if p c then digitsOf p cs else []
  | [] => []

def isHexDigit (c : Char) : Bool :=
  c.isDigit || ('a' ≤ c && c ≤ 'f') || ('A' ≤ c && c ≤ 'F')

/-- An exponent: its mark, an optional sign and digits. -/
def exponentRun (cs : List Char) : List Char :=
  match cs with
  | e :: rest =>
    if e == 'e' || e == 'E' then
      let (sign, digits) := match rest with
        | '+' :: more => (['+'], more)
        | '-' :: more => (['-'], more)
        | more => ([], more)
      match digitRun Char.isDigit digits with
      | [] => []
      | run => e :: sign ++ run
    else []
  | [] => []

/-- A number in base two, eight or sixteen. -/
def basedRun (cs : List Char) : List Char :=
  match cs with
  | '0' :: base :: rest =>
    let p : Char → Bool :=
      if base == 'x' || base == 'X' then isHexDigit
      else if base == 'o' || base == 'O' then fun c => '0' ≤ c && c ≤ '7'
      else if base == 'b' || base == 'B' then fun c => c == '0' || c == '1'
      else fun _ => false
    match digitRun p rest with
    | [] => []
    | run => '0' :: base :: run
  | _ => []

/-- A decimal number with its fraction and exponent. -/
def decimalRun (cs : List Char) : List Char :=
  let whole := digitRun Char.isDigit cs
  let rest := cs.drop whole.length
  let fraction := match rest with
    | '.' :: more =>
      let run := digitRun Char.isDigit more
      if whole.isEmpty && run.isEmpty then [] else '.' :: run
    | _ => []
  if whole.isEmpty && fraction.isEmpty then []
  else whole ++ fraction ++ exponentRun (rest.drop fraction.length)

/-- The characters of the number at the front. A whole number may be marked as big. -/
def numberRun (cs : List Char) : List Char :=
  let run := match basedRun cs with
    | [] => decimalRun cs
    | run => run
  if run.isEmpty then []
  else match cs.drop run.length with
    | 'n' :: _ => if run.contains '.' then run else run ++ ['n']
    | _ => run

def number : Parser Node := do
  trivia
  let c ← cursor
  match numberRun c.rest with
  | [] => failure
  | run =>
    set (c.skip run)
    leafFrom .number c.pos

/-! ### Strings -/

def isOctalDigit (c : Char) : Bool :=
  '0' ≤ c && c ≤ '7'

/-- The characters of the escape sequence at the front. -/
def escapeRun : List Char → List Char
  | '\\' :: 'x' :: a :: b :: _ => if isHexDigit a && isHexDigit b then ['\\', 'x', a, b] else []
  | '\\' :: 'u' :: '{' :: rest =>
    let run := rest.takeWhile isHexDigit
    match rest.drop run.length with
    | '}' :: _ => if run.isEmpty then [] else '\\' :: 'u' :: '{' :: run ++ ['}']
    | _ => []
  | '\\' :: 'u' :: a :: b :: c :: d :: _ =>
    if [a, b, c, d].all isHexDigit then ['\\', 'u', a, b, c, d] else []
  | '\\' :: '\r' :: '\n' :: _ => ['\\', '\r', '\n']
  | '\\' :: c :: rest =>
    if isOctalDigit c then '\\' :: c :: (rest.take 2).takeWhile isOctalDigit
    else if c == 'x' || c == 'u' then []
    else ['\\', c]
  | _ => []

/-- A run of characters accepted by `p`, as a fragment. -/
def fragment (p : Char → Bool) : Parser Node := do
  let c ← cursor
  match c.rest.takeWhile p with
  | [] => failure
  | run =>
    set (c.skip run)
    leafFrom .stringFragment c.pos

def escapeSequence : Parser Node := do
  let c ← cursor
  match escapeRun c.rest with
  | [] => failure
  | run =>
    set (c.skip run)
    leafFrom .escapeSequence c.pos

/-- A string between two of these quotes; it ends on the line where it begins. -/
def stringBetween (quote : Char) : Parser Node := do
  let opening ← mark (String.singleton quote)
  let pieces ← many
    (fragment (fun c => c != quote && c != '\\' && c != '\n' && c != '\r') <|> escapeSequence)
  let closing ← mark (String.singleton quote)
  return nodeOf .string (opening :: pieces ++ [closing])

def stringLiteral : Parser Node :=
  stringBetween '"' <|> stringBetween (Char.ofNat 39)

/-! ### Regular expressions -/

/-- The characters of a regular expression up to its closing slash. -/
def regexRun (inClass : Bool) : List Char → Option (List Char)
  | [] => none
  | '\\' :: c :: rest => if c == '\n' then none else (regexRun inClass rest).map ('\\' :: c :: ·)
  | c :: rest =>
    if c == '\n' then none
    else if c == '/' && !inClass then some []
    else
      let inClass := if c == '[' then true else if c == ']' then false else inClass
      (regexRun inClass rest).map (c :: ·)

def regexLiteral : Parser Node := do
  let opening ← mark "/"
  let c ← cursor
  match regexRun false c.rest with
  | none | some [] => failure
  | some run =>
    set (c.skip run)
    let pattern ← leafFrom .regexPattern c.pos
    let closing ← markHere "/"
    let flagged ← cursor
    let flags := flagged.rest.takeWhile fun x => 'a' ≤ x && x ≤ 'z'
    if flags.isEmpty then return nodeOf .regex [opening, pattern, closing]
    set (flagged.skip flags)
    return nodeOf .regex [opening, pattern, closing, ← leafFrom .regexFlags flagged.pos]

/-! ### Templates -/

/-- The characters of a template up to the next substitution, escape or closing mark. -/
def templateRun : List Char → List Char
  | [] => []
  | '$' :: '{' :: _ => []
  | c :: rest => if c == Char.ofNat 96 || c == '\\' then [] else c :: templateRun rest

def templateFragment : Parser Node := do
  let c ← cursor
  match templateRun c.rest with
  | [] => failure
  | run =>
    set (c.skip run)
    leafFrom .stringFragment c.pos

/-- A template whose substitutions hold what `inner` reads. -/
def templateWith (inner : Parser Node) : Parser Node := do
  let quote := String.singleton (Char.ofNat 96)
  let opening ← mark quote
  let substitution : Parser Node := do
    let opening ← markHere "$\x7b"
    let value ← inner
    let closing ← mark "\x7d"
    return nodeOf .templateSubstitution [opening, value, closing]
  let pieces ← many (templateFragment <|> escapeSequence <|> substitution)
  let closing ← markHere quote
  return nodeOf .templateString (opening :: pieces ++ [closing])

end JsxAudit.Syntax.Parser
