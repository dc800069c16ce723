import JsxAudit.Data.Value

/-!
Writing JSON.

The indented layout puts every item and field on a line of its own, two columns deeper than what
holds it, and writes empty lists and tables closed up. Text is either kept as it is, or restricted
to ASCII with `\u` escapes in UTF-16 units.
-/

namespace JsxAudit.Data.Json

/-- Which characters beyond the ones that JSON reserves are escaped. -/
inductive Charset where
  | ascii
  | unicode
  deriving DecidableEq

/-! ### Strings -/

/-- Four lowercase hexadecimal digits of a code unit. -/
def unitEscape (n : Nat) : List Char :=
  ['\\', 'u', Nat.digitChar (n / 4096 % 16), Nat.digitChar (n / 256 % 16),
    Nat.digitChar (n / 16 % 16), Nat.digitChar (n % 16)]

/-- The UTF-16 units of a character, escaped. -/
def unitsEscape (c : Char) : List Char :=
  let n := c.toNat
  if n < 0x10000 then unitEscape n
  else unitEscape (0xD800 + (n - 0x10000) / 0x400) ++ unitEscape (0xDC00 + (n - 0x10000) % 0x400)

def escapeChar (charset : Charset) (c : Char) : List Char :=
  if c == '"' then ['\\', '"']
  else if c == '\\' then ['\\', '\\']
  else if c == '\n' then ['\\', 'n']
  else if c == '\r' then ['\\', 'r']
  else if c == '\t' then ['\\', 't']
  else if c.toNat == 8 then ['\\', 'b']
  else if c.toNat == 12 then ['\\', 'f']
  else if c.toNat < 0x20 then unitEscape c.toNat
  else if charset = .ascii ∧ 0x7E < c.toNat then unitsEscape c
  else [c]

/-- A string between double quotes. -/
def writeString (charset : Charset) (s : String) : String :=
  String.ofList ('"' :: s.toList.flatMap (escapeChar charset) ++ ['"'])

def writeFloat (x : Float) : String :=
  match Decimal.shortestText x with
  | "inf" => "Infinity"
  | "-inf" => "-Infinity"
  | "nan" => "NaN"
  | text => text

/-! ### Layouts -/

/-- A line break followed by an indentation of `depth` levels. -/
def newline (depth : Nat) : String :=
  String.ofList ('\n' :: List.replicate (2 * depth) ' ')

mutual

/-- A value in the indented layout, inside `depth` levels. -/
def writeAt (charset : Charset) (depth : Nat) : Value → String
  | .null => "null"
  | .bool true => "true"
  | .bool false => "false"
  | .int n => toString n
  | .float x => writeFloat x
  | .str s => writeString charset s
  | .list [] => "[]"
  | .list items =>
    let sep := newline (depth + 1)
    "[" ++ sep ++ ("," ++ sep).intercalate (writeItems charset (depth + 1) items) ++
      newline depth ++ "]"
  | .table [] => "\x7b\x7d"
  | .table fields =>
    let sep := newline (depth + 1)
    "\x7b" ++ sep ++ ("," ++ sep).intercalate (writeFields charset (depth + 1) fields) ++
      newline depth ++ "\x7d"

def writeItems (charset : Charset) (depth : Nat) : List Value → List String
  | [] => []
  | v :: rest => writeAt charset depth v :: writeItems charset depth rest

def writeFields (charset : Charset) (depth : Nat) : List (String × Value) → List String
  | [] => []
  | (k, v) :: rest =>
    (writeString charset k ++ ": " ++ writeAt charset depth v) :: writeFields charset depth rest

end

/-- A value in the indented layout. -/
def write (charset : Charset) (v : Value) : String :=
  writeAt charset 0 v

mutual

/-- A value on one line, restricted to ASCII. -/
def writeLine : Value → String
  | .null => "null"
  | .bool true => "true"
  | .bool false => "false"
  | .int n => toString n
  | .float x => writeFloat x
  | .str s => writeString .ascii s
  | .list items => "[" ++ ", ".intercalate (writeLineItems items) ++ "]"
  | .table fields => "\x7b" ++ ", ".intercalate (writeLineFields fields) ++ "\x7d"

def writeLineItems : List Value → List String
  | [] => []
  | v :: rest => writeLine v :: writeLineItems rest

def writeLineFields : List (String × Value) → List String
  | [] => []
  | (k, v) :: rest => (writeString .ascii k ++ ": " ++ writeLine v) :: writeLineFields rest

end

end JsxAudit.Data.Json
