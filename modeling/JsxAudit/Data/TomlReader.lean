import JsxAudit.Data.JsonReader

/-!
Reading TOML.

A document is a row of statements, one a line: a header that names a table, or a key with a value,
put into the table named last. No name is given twice, a table is opened by its own header once,
and what a value or an inline table says is not added to. Dates and times are kept as texts.
-/

namespace JsxAudit.Data.Toml

/-! ### Blanks and comments -/

def isSpace (c : Char) : Bool :=
  c == ' ' || c == '\t'

def skipSpace (cs : List Char) : List Char :=
  cs.dropWhile isSpace

/-- Control characters that no text may hold. -/
def isForbidden (c : Char) : Bool :=
  (c.toNat < 0x20 && c != '\t') || c.toNat == 0x7F

/-- The rest of a line after a comment, from its line break on. -/
def skipComment (cs : List Char) : Option (List Char) :=
  match cs with
  | '#' :: rest =>
    let (comment, rest) := (rest.takeWhile (· != '\n'), rest.dropWhile (· != '\n'))
    if comment.any isForbidden then none else some rest
  | _ => some cs

/-- The rest after the end of a line, comments included. -/
def endLine (cs : List Char) : Option (List Char) := do
  match ← skipComment (skipSpace cs) with
  | [] => some []
  | '\n' :: rest => some rest
  | _ => none

/-- The rest after blanks, line breaks and comments. -/
def skipLines : Nat → List Char → Option (List Char)
  | 0, _ => none
  | fuel + 1, cs =>
    match cs.dropWhile fun c => isSpace c || c == '\n' with
    | '#' :: rest => do skipLines fuel (← skipComment ('#' :: rest))
    | rest => some rest

/-! ### Strings -/

/-- The character of so many hexadecimal digits, and what follows them. -/
def hexEscape (count : Nat) (cs : List Char) : Option (Char × List Char) := do
  let digits := cs.take count
  if digits.length ≠ count then none
  else
    let n ← digits.foldlM (fun n c => do return 16 * n + (← Json.hexValue? c)) 0
    if n.isValidChar then some (Char.ofNat n, cs.drop count) else none

/-- What a backslash and the characters after it stand for. -/
def readEscape : List Char → Option (Char × List Char)
  | 'u' :: rest => hexEscape 4 rest
  | 'U' :: rest => hexEscape 8 rest
  | '/' :: _ => none
  | c :: rest => (Json.simpleEscape? c).map fun escaped => (escaped, rest)
  | [] => none

/-- The characters of a string on one line after its opening quote. -/
def readBasic : Nat → List Char → Option (List Char × List Char)
  | 0, _ => none
  | fuel + 1, cs => do
    match cs with
    | '"' :: rest => some ([], rest)
    | '\\' :: rest =>
      let (c, rest) ← readEscape rest
      let (more, rest) ← readBasic fuel rest
      return (c :: more, rest)
    | c :: rest =>
      if isForbidden c then none
      else
        let (more, rest) ← readBasic fuel rest
        return (c :: more, rest)
    | [] => none

def quoteMark : Char := Char.ofNat 39

/-- The characters of a string without escapes after its opening quote. -/
def readLiteral (cs : List Char) : Option (List Char × List Char) :=
  let body := cs.takeWhile (· != quoteMark)
  match cs.dropWhile (· != quoteMark) with
  | _ :: rest => if body.any isForbidden then none else some (body, rest)
  | [] => none

/-- The rest after three closing quotes, and the quotes before them that belong to the string. -/
def closeThree (mark : Char) (cs : List Char) : Option (List Char × List Char) :=
  let count := (cs.takeWhile (· == mark)).length
  if count < 3 then none
  else
    let kept := min (count - 3) 2
    some (List.replicate kept mark, cs.drop (kept + 3))

/-- The characters of a string of several lines. With `escapes` a backslash begins an escape, or
joins lines. -/
def readLong (mark : Char) (escapes : Bool) : Nat → List Char → Option (List Char × List Char)
  | 0, _ => none
  | fuel + 1, cs =>
    match closeThree mark cs with
    | some found => some found
    | none => do
      match cs with
      | [] => none
      | c :: rest =>
        if c = '\\' && escapes then
          match skipSpace rest with
          | '\n' :: more =>
            readLong mark escapes fuel (more.dropWhile fun c => isSpace c || c == '\n')
          | _ =>
            let (c, rest) ← readEscape rest
            let (more, rest) ← readLong mark escapes fuel rest
            return (c :: more, rest)
        else if isForbidden c && c != '\n' then none
        else
          let (more, rest) ← readLong mark escapes fuel rest
          return (c :: more, rest)

/-- A line break right after the opening quotes does not count. -/
def skipBreak : List Char → List Char
  | '\n' :: rest => rest
  | cs => cs

/-- A string of any of the four kinds. -/
def readString (cs : List Char) : Option (List Char × List Char) :=
  match cs with
  | '"' :: '"' :: '"' :: rest => readLong '"' true (rest.length + 1) (skipBreak rest)
  | '"' :: rest => readBasic (rest.length + 1) rest
  | a :: b :: c :: rest =>
    if a = quoteMark ∧ b = quoteMark ∧ c = quoteMark then
      readLong quoteMark false (rest.length + 1) (skipBreak rest)
    else if a = quoteMark then readLiteral (b :: c :: rest)
    else none
  | a :: rest => if a = quoteMark then readLiteral rest else none
  | [] => none

/-! ### Keys -/

def isKeyChar (c : Char) : Bool :=
  c.isAlphanum || c == '_' || c == '-'

/-- One part of a key. -/
def readKeyPart (cs : List Char) : Option (String × List Char) :=
  match cs with
  | c :: _ =>
    if c = '"' || c = quoteMark then
      (if c = '"' then readBasic (cs.length + 1) (cs.drop 1) else readLiteral (cs.drop 1)).map
        fun (name, rest) => (String.ofList name, rest)
    else if isKeyChar c then
      some (String.ofList (cs.takeWhile isKeyChar), cs.dropWhile isKeyChar)
    else none
  | [] => none

/-- A key: parts with points between them. -/
def readKey : Nat → List Char → Option (List String × List Char)
  | 0, _ => none
  | fuel + 1, cs => do
    let (part, rest) ← readKeyPart cs
    match skipSpace rest with
    | '.' :: more =>
      let (parts, rest) ← readKey fuel (skipSpace more)
      return (part :: parts, rest)
    | rest => return ([part], rest)

/-! ### Numbers -/

/-- Characters that numbers, dates and times are made of. -/
def isNumberChar (c : Char) : Bool :=
  c.isAlphanum || c == '_' || c == '+' || c == '-' || c == '.' || c == ':'

/-- Digits with single underscores between them. -/
def plainDigits? (isDigit : Char → Bool) : List Char → Option (List Char)
  | [] => none
  | [c] => if isDigit c then some [c] else none
  | c :: '_' :: rest => if isDigit c then (plainDigits? isDigit rest).map (c :: ·) else none
  | c :: rest => if isDigit c then (plainDigits? isDigit rest).map (c :: ·) else none

/-- A whole number in a base, after the mark of the base. -/
def radixValue? (base : Nat) (digits : List Char) : Option Nat := do
  let digits ← plainDigits? (fun c => (Json.hexValue? c).any (· < base)) digits
  digits.foldlM (fun n c => do return base * n + (← Json.hexValue? c)) 0

/-- A number as JSON has it. -/
def decimalValue? (cs : List Char) : Option Value :=
  match Json.readMagnitude false cs with
  | some (v, []) => some v
  | _ => none

def negated : Value → Value
  | .int n => .int (-n)
  | .float x => .float (-x)
  | v => v

/-- Underscores may stand between two digits and nowhere else. -/
def underscoresFit : List Char → Bool
  | a :: '_' :: b :: rest => a.isDigit && b.isDigit && underscoresFit (b :: rest)
  | '_' :: _ => false
  | [_, '_'] => false
  | _ :: rest => underscoresFit rest
  | [] => true

/-- A number without its sign. -/
def magnitude? (cs : List Char) : Option Value :=
  if cs = "inf".toList then some (.float (1.0 / 0.0))
  else if cs = "nan".toList then some (.float (0.0 / 0.0))
  else if underscoresFit cs then decimalValue? (cs.filter (· != '_')) else none

/-- Four digits and a dash, or two digits and a colon, begin a date or a time. -/
def isDateLike : List Char → Bool
  | a :: b :: c :: d :: '-' :: _ => [a, b, c, d].all Char.isDigit
  | a :: b :: ':' :: _ => a.isDigit && b.isDigit
  | _ => false

/-- The value that a word of number characters writes. -/
def numberValue? (cs : List Char) : Option Value :=
  match cs with
  | '0' :: 'x' :: rest => (radixValue? 16 rest).map fun n => .int n
  | '0' :: 'o' :: rest => (radixValue? 8 rest).map fun n => .int n
  | '0' :: 'b' :: rest => (radixValue? 2 rest).map fun n => .int n
  | '+' :: rest => magnitude? rest
  | '-' :: rest => (magnitude? rest).map negated
  | _ => if isDateLike cs then some (.str (String.ofList cs)) else magnitude? cs

/-! ### Tables -/

/-- The fields with a value put under a key that is not there yet; tables on the way are made. -/
def insertNew : List String → Value → Fields → Option Fields
  | [], _, _ => none
  | [name], v, fields =>
    match Keyed.get? fields name with
    | none => some (Keyed.set name v fields)
    | some _ => none
  | name :: rest, v, fields =>
    match Keyed.get? fields name with
    | none => (insertNew rest v []).map fun inner => Keyed.set name (.table inner) fields
    | some (.table inner) =>
      (insertNew rest v inner).map fun inner => Keyed.set name (.table inner) fields
    | some _ => none

/-- One name begins with the other. -/
def within (outer inner : List String) : Bool :=
  outer.isPrefixOf inner

def isComposite : Value → Bool
  | .list _ | .table _ => true
  | _ => false

/-! ### Values -/

mutual

/-- The value at the front. -/
def readValue : Nat → List Char → Option (Value × List Char)
  | 0, _ => none
  | fuel + 1, cs =>
    match cs with
    | '[' :: rest => do
      match ← skipLines (fuel + 1) rest with
      | ']' :: after => return (.list [], after)
      | body =>
        let (items, after) ← readItems fuel body
        return (.list items, after)
    | '{' :: rest =>
      match skipSpace rest with
      | '}' :: after => some (.table [], after)
      | body => (readInline fuel [] [] body).map fun (fields, after) => (.table fields, after)
    | c :: rest =>
      if c = '"' || c = quoteMark then
        (readString cs).map fun (s, after) => (.str (String.ofList s), after)
      else
        let word := (c :: rest).takeWhile isNumberChar
        let after := (c :: rest).dropWhile isNumberChar
        if word = "true".toList then some (.bool true, after)
        else if word = "false".toList then some (.bool false, after)
        else (numberValue? word).map fun v => (v, after)
    | [] => none

/-- The items of a list up to its closing bracket. -/
def readItems : Nat → List Char → Option (List Value × List Char)
  | 0, _ => none
  | fuel + 1, cs => do
    let (v, rest) ← readValue fuel cs
    match ← skipLines (fuel + 1) rest with
    | ']' :: after => return ([v], after)
    | ',' :: more =>
      match ← skipLines (fuel + 1) more with
      | ']' :: after => return ([v], after)
      | body =>
        let (items, after) ← readItems fuel body
        return (v :: items, after)
    | _ => none

/-- The fields of a table on one line up to its closing brace, after some that are read. What is
under a key in `closed` is not added to. -/
def readInline : Nat → Fields → List (List String) → List Char → Option (Fields × List Char)
  | 0, _, _, _ => none
  | fuel + 1, fields, closed, cs => do
    let (key, rest) ← readKey (cs.length + 1) cs
    match rest with
    | '=' :: rest =>
      let (v, rest) ← readValue fuel (skipSpace rest)
      if closed.any (within · key) then none
      else
        let fields ← insertNew key v fields
        match skipSpace rest with
        | '}' :: after => return (fields, after)
        | ',' :: more =>
          readInline fuel fields (if isComposite v then key :: closed else closed) (skipSpace more)
        | _ => none
    | _ => none

end

/-! ### Documents -/

/-- What a statement of a document does. -/
inductive Statement where
  | table (key : List String)
  | element (key : List String)
  | pair (key : List String) (v : Value)

/-- The statement at the front, its line ended. -/
def readStatement (cs : List Char) : Option (Statement × List Char) := do
  let fuel := cs.length + 1
  match cs with
  | '[' :: '[' :: rest =>
    let (key, rest) ← readKey fuel (skipSpace rest)
    match rest with
    | ']' :: ']' :: rest => return (.element key, ← endLine rest)
    | _ => none
  | '[' :: rest =>
    let (key, rest) ← readKey fuel (skipSpace rest)
    match rest with
    | ']' :: rest => return (.table key, ← endLine rest)
    | _ => none
  | _ =>
    let (key, rest) ← readKey fuel cs
    match rest with
    | '=' :: rest =>
      let (v, rest) ← readValue fuel (skipSpace rest)
      return (.pair key v, ← endLine rest)
    | _ => none

/-- The statements of a document. -/
def readStatements : Nat → List Char → Option (List Statement)
  | 0, _ => none
  | fuel + 1, cs => do
    match ← skipLines (fuel + 1) cs with
    | [] => return []
    | body =>
      let (s, rest) ← readStatement body
      return s :: (← readStatements fuel rest)

/-- The fields with those of one table changed. In a list of tables the last one is meant. -/
def updateAt (change : Fields → Option Fields) : List String → Fields → Option Fields
  | [], fields => change fields
  | name :: rest, fields => do
    match (Keyed.get? fields name).getD (.table []) with
    | .table inner =>
      return Keyed.set name (.table (← updateAt change rest inner)) fields
    | .list items =>
      match items.getLast? with
      | some (.table inner) =>
        let changed := Value.table (← updateAt change rest inner)
        return Keyed.set name (.list (items.dropLast ++ [changed])) fields
      | _ => none
    | _ => none

/-- The fields with one more element in a list of tables. -/
def appendElement (name : String) (fields : Fields) : Option Fields :=
  match Keyed.get? fields name with
  | none => some (Keyed.set name (.list [.table []]) fields)
  | some (.list items) => some (Keyed.set name (.list (items ++ [.table []])) fields)
  | some _ => none

/-- A document so far: its fields, the table named last, the tables that must not be opened again
(those in `pending` from the next header on), and what must not be added to. -/
structure Progress where
  fields : Fields := []
  current : List String := []
  opened : List (List String) := []
  pending : List (List String) := []
  closed : List (List String) := []

/-- The document with its pending tables opened. -/
def Progress.settled (p : Progress) : Progress :=
  { p with opened := p.pending ++ p.opened, pending := [] }

/-- The document with a table opened by its header. -/
def Progress.openTable (p : Progress) (key : List String) : Option Progress :=
  if p.opened.contains key || p.closed.any (within · key) then none
  else do
    let fields ← updateAt some key p.fields
    return { p with fields, current := key, opened := key :: p.opened }

/-- The document with one more table in a list of them. What was said under the name was said of
the table before. -/
def Progress.openElement (p : Progress) (key : List String) : Option Progress :=
  if p.closed.any (within · key) then none
  else do
    let fields ← updateAt (appendElement (key.getLast?.getD "")) key.dropLast p.fields
    return { p with fields, current := key
                    opened := key :: p.opened.filter fun other => !within key other
                    closed := p.closed.filter fun other => !within key other }

/-- The document with a value in the table named last. -/
def Progress.addPair (p : Progress) (key : List String) (v : Value) : Option Progress :=
  let containers := (List.range (key.length - 1)).map fun i => p.current ++ key.take (i + 1)
  if containers.any p.opened.contains || p.closed.any (within · (p.current ++ key.dropLast)) then
    none
  else do
    let fields ← updateAt (insertNew key v) p.current p.fields
    return { p with fields, pending := containers ++ p.pending
                    closed := if isComposite v then (p.current ++ key) :: p.closed else p.closed }

/-- The document after one more statement. -/
def Progress.add (p : Progress) : Statement → Option Progress
  | .table key => p.settled.openTable key
  | .element key => p.settled.openElement key
  | .pair key v => p.addPair key v

/-- Carriage returns before line feeds do not count. -/
def lineFeeds : List Char → List Char
  | '\r' :: '\n' :: rest => '\n' :: lineFeeds rest
  | c :: rest => c :: lineFeeds rest
  | [] => []

/-- The fields of a document. -/
def read? (s : String) : Option Fields := do
  let cs := lineFeeds s.toList
  let statements ← readStatements (cs.length + 1) cs
  return (← statements.foldlM Progress.add {}).fields

end JsxAudit.Data.Toml
