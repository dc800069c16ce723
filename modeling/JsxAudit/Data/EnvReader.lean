import JsxAudit.Text.Blank

/-!
Reading files of environment variables.

A line gives one variable a value, in quotes or without; a line without an equals sign takes its
value away. Lines that cannot be read say nothing. In values, a name in braces after a dollar sign
stands for the value of that variable.
-/

namespace JsxAudit.Data.Env

/-- Blanks within a line. -/
def isLineBlank (c : Char) : Bool :=
  Text.isBlank c && c != '\n' && c != '\r'

def isBreak (c : Char) : Bool :=
  c == '\n' || c == '\r'

def skipBlanks (cs : List Char) : List Char :=
  cs.dropWhile isLineBlank

def singleQuote : Char := Char.ofNat 39

/-- The rest after the line. -/
def restOfLine (cs : List Char) : List Char :=
  match cs.dropWhile (!isBreak ·) with
  | '\r' :: '\n' :: rest => rest
  | _ :: rest => rest
  | [] => []

/-- The rest after a comment and the end of the line, which nothing else may stand before. -/
def endOfLine? (cs : List Char) : Option (List Char) :=
  let rest := match skipBlanks cs with
    | '#' :: more => more.dropWhile (!isBreak ·)
    | more => more
  match rest with
  | [] => some []
  | c :: _ => if isBreak c then some (restOfLine rest) else none

/-- The rest after the word `export` and blanks. -/
def skipExport (cs : List Char) : List Char :=
  if "export".toList.isPrefixOf cs then
    match cs.drop 6 with
    | c :: rest => if isLineBlank c then skipBlanks rest else cs
    | [] => cs
  else cs

/-- The name of a variable. -/
def readName? (cs : List Char) : Option (List Char × List Char) :=
  match cs with
  | [] => none
  | c :: rest =>
    if c = singleQuote then
      match rest.takeWhile (· != singleQuote), rest.dropWhile (· != singleQuote) with
      | [], _ => none
      | _, [] => none
      | name, _ :: after => some (name, after)
    else
      let isName (c : Char) : Bool := c != '=' && c != '#' && !Text.isBlank c
      match cs.takeWhile isName with
      | [] => none
      | name => some (name, cs.dropWhile isName)

/-- What a backslash and a character stand for in double quotes. -/
def doubleEscape? : Char → Option Char
  | '\\' => some '\\'
  | '"' => some '"'
  | 'a' => some (Char.ofNat 7)
  | 'b' => some (Char.ofNat 8)
  | 'f' => some (Char.ofNat 12)
  | 'n' => some '\n'
  | 'r' => some '\r'
  | 't' => some '\t'
  | 'v' => some (Char.ofNat 11)
  | c => if c = singleQuote then some c else none

def singleEscape? (c : Char) : Option Char :=
  if c = '\\' || c = singleQuote then some c else none

/-- Text with its escapes carried out. -/
def unescape (escape? : Char → Option Char) : List Char → List Char
  | '\\' :: c :: rest =>
    match escape? c with
    | some escaped => escaped :: unescape escape? rest
    | none => '\\' :: unescape escape? (c :: rest)
  | c :: rest => c :: unescape escape? rest
  | [] => []

/-- The characters up to the closing quote, and the rest behind it. A quote after a backslash
closes only if no later one does. -/
def quoted? (mark : Char) : List Char → Option (List Char × List Char)
  | [] => none
  | '\\' :: c :: rest =>
    if c = mark then
      match quoted? mark rest with
      | some (body, after) => some ('\\' :: c :: body, after)
      | none => some (['\\'], rest)
    else (quoted? mark (c :: rest)).map fun (body, after) => ('\\' :: body, after)
  | c :: rest =>
    if c = mark then some ([], rest)
    else (quoted? mark rest).map fun (body, after) => (c :: body, after)

/-- Text up to the blanks in front of a comment. -/
def withoutComment : List Char → List Char
  | [] => []
  | c :: rest =>
    if Text.isBlank c && ((c :: rest).dropWhile Text.isBlank).head? = some '#' then []
    else c :: withoutComment rest

/-- The value after the equals sign. -/
def readVariableValue? (cs : List Char) : Option (List Char × List Char) :=
  match cs with
  | [] => some ([], [])
  | c :: rest =>
    if c = singleQuote then
      (quoted? singleQuote rest).map fun (body, after) => (unescape singleEscape? body, after)
    else if c = '"' then
      (quoted? '"' rest).map fun (body, after) => (unescape doubleEscape? body, after)
    else
      let body := withoutComment (cs.takeWhile (!isBreak ·))
      some ((body.reverse.dropWhile Text.isBlank).reverse, cs.dropWhile (!isBreak ·))

/-- What a line says of a variable: its value, or only its name. -/
abbrev Binding := String × Option String

/-- A binding that nothing but a comment follows on its line, and the rest after the line. -/
def finish (binding : Option Binding) (cs : List Char) : Option Binding × List Char :=
  match endOfLine? cs with
  | some rest => (binding, rest)
  | none => (none, restOfLine cs)

/-- The binding of a line, if it has one, and the rest after the line. -/
def readBinding (cs : List Char) : Option Binding × List Char :=
  let cs := skipExport cs
  match cs with
  | '#' :: _ => finish none cs
  | _ =>
    match readName? cs with
    | none => (none, restOfLine cs)
    | some (name, rest) =>
      match skipBlanks rest with
      | '=' :: rest =>
        let rest := skipBlanks rest
        match readVariableValue? rest with
        | none => (none, restOfLine rest)
        | some (value, rest) => finish (some (String.ofList name, some (String.ofList value))) rest
      | rest => finish (some (String.ofList name, none)) rest

/-- The bindings of the lines. -/
def readBindings : Nat → List Char → List Binding
  | 0, _ => []
  | fuel + 1, cs =>
    match cs.dropWhile Text.isBlank with
    | [] => []
    | body =>
      let (binding, rest) := readBinding body
      binding.toList ++ readBindings fuel rest

/-- Variables and their values as they are written, in the order of the lines. -/
def read (s : String) : List Binding :=
  readBindings (s.length + 1) s.toList

/-! ### References to other variables -/

/-- A reference at the front, after its dollar sign: the name, the value where the name has none,
and the rest. -/
def readReference? : List Char → Option (List Char × List Char × List Char)
  | '{' :: cs =>
    let name := cs.takeWhile fun c => c != '}' && c != ':'
    match cs.drop name.length with
    | '}' :: rest => some (name, [], rest)
    | ':' :: '-' :: more =>
      let fallback := more.takeWhile (· != '}')
      match more.drop fallback.length with
      | _ :: rest => some (name, fallback, rest)
      | [] => none
    | _ => none
  | _ => none

/-- The characters of a value with its references replaced. -/
def replaceReferences (valueOf : String → Option String) : Nat → List Char → List Char
  | 0, cs => cs
  | _, [] => []
  | fuel + 1, c :: rest =>
    match if c = '$' then readReference? rest else none with
    | some (name, fallback, rest) =>
      ((valueOf (String.ofList name)).map String.toList).getD fallback ++
        replaceReferences valueOf fuel rest
    | none => c :: replaceReferences valueOf fuel rest

/-- The text of a value with its references replaced. -/
def interpolated (valueOf : String → Option String) (value : String) : String :=
  String.ofList (replaceReferences valueOf (value.length + 1) value.toList)

end JsxAudit.Data.Env
