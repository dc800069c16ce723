import JsxAudit.Data.Value

/-!
Reading JSON.

Beyond the standard, `NaN`, `Infinity` and `-Infinity` are numbers. A number with neither fraction
nor exponent is whole; whole numbers of more than 4300 digits are refused. A repeated field takes
its last value. Control characters inside strings, a byte order mark at the start, and anything but
blanks after the value are errors.

The reader itself takes any nesting. Whoever has room for some levels only asks before (`tooDeep`).
-/

namespace JsxAudit.Data.Json

/-- Characters that may stand between tokens. -/
def isSpace (c : Char) : Bool :=
  c == ' ' || c == '\t' || c == '\n' || c == '\r'

def skipSpace (cs : List Char) : List Char :=
  cs.dropWhile isSpace

/-! ### Strings -/

/-- The value of a hexadecimal digit. -/
def hexValue? (c : Char) : Option Nat :=
  if '0' ≤ c ∧ c ≤ '9' then some (c.toNat - 48)
  else if 'a' ≤ c ∧ c ≤ 'f' then some (c.toNat - 87)
  else if 'A' ≤ c ∧ c ≤ 'F' then some (c.toNat - 55)
  else none

/-- The number that four hexadecimal digits write. -/
def hexUnit? (a b c d : Char) : Option Nat := do
  return (← hexValue? a) * 4096 + (← hexValue? b) * 256 + (← hexValue? c) * 16 + (← hexValue? d)

def isHighSurrogate (n : Nat) : Bool :=
  0xD800 ≤ n && n < 0xDC00

def isLowSurrogate (n : Nat) : Bool :=
  0xDC00 ≤ n && n < 0xE000

/-- The character of two code units. -/
def joinSurrogates (high low : Nat) : Char :=
  Char.ofNat (0x10000 + (high - 0xD800) * 0x400 + (low - 0xDC00))

/-- The character of one code unit; half a pair alone becomes the replacement character. -/
def charOfUnit (n : Nat) : Char :=
  if isHighSurrogate n || isLowSurrogate n then Char.ofNat 0xFFFD else Char.ofNat n

/-- The character that a backslash and one letter stand for. -/
def simpleEscape? : Char → Option Char
  | '"' => some '"'
  | '\\' => some '\\'
  | '/' => some '/'
  | 'b' => some (Char.ofNat 8)
  | 'f' => some (Char.ofNat 12)
  | 'n' => some '\n'
  | 'r' => some '\r'
  | 't' => some '\t'
  | _ => none

/-- The characters of a string after its opening quote, and what follows the closing one. -/
def readChars : List Char → Option (List Char × List Char)
  | [] => none
  | '"' :: rest => some ([], rest)
  | '\\' :: 'u' :: a :: b :: c :: d :: '\\' :: 'u' :: e :: f :: g :: h :: rest => do
    let high ← hexUnit? a b c d
    let low? := hexUnit? e f g h
    match low? with
    | some low =>
      if isHighSurrogate high && isLowSurrogate low then
        let (cs, rest) ← readChars rest
        return (joinSurrogates high low :: cs, rest)
      else
        let (cs, rest) ← readChars ('\\' :: 'u' :: e :: f :: g :: h :: rest)
        return (charOfUnit high :: cs, rest)
    | none => none
  | '\\' :: 'u' :: a :: b :: c :: d :: rest => do
    let n ← hexUnit? a b c d
    let (cs, rest) ← readChars rest
    return (charOfUnit n :: cs, rest)
  | '\\' :: c :: rest => do
    let escaped ← simpleEscape? c
    let (cs, rest) ← readChars rest
    return (escaped :: cs, rest)
  | c :: rest =>
    if c.toNat < 0x20 || c == '\\' then none
    else do
      let (cs, rest) ← readChars rest
      return (c :: cs, rest)

theorem readChars_quote (rest : List Char) : readChars ('"' :: rest) = some ([], rest) := by
  rw [readChars]

/-! ### Numbers -/

/-- Whole numbers of more digits are refused. -/
def maxDigits : Nat := 4300

def digitsValue (digits : List Char) : Nat :=
  digits.foldl (fun n c => 10 * n + (c.toNat - 48)) 0

/-- The digits at the front, and the rest. -/
def takeDigits (cs : List Char) : List Char × List Char :=
  (cs.takeWhile Char.isDigit, cs.dropWhile Char.isDigit)

/-- The whole part of a number: a zero alone, or digits. -/
def takeWhole : List Char → List Char × List Char
  | '0' :: rest => (['0'], rest)
  | cs => takeDigits cs

/-- A fraction: a point and at least one digit. Without them there is none. -/
def takeFraction : List Char → List Char × List Char
  | '.' :: rest =>
    match takeDigits rest with
    | ([], _) => ([], '.' :: rest)
    | (digits, rest) => (digits, rest)
  | cs => ([], cs)

/-- Whether a minus stands in front, and what follows the sign. -/
def takeSign : List Char → Bool × List Char
  | '-' :: rest => (true, rest)
  | '+' :: rest => (false, rest)
  | rest => (false, rest)

/-- An exponent: a mark, an optional sign and at least one digit. -/
def takeExponent (cs : List Char) : Option Int × List Char :=
  match cs with
  | mark :: rest =>
    if mark == 'e' || mark == 'E' then
      let (negative, digits) := takeSign rest
      match takeDigits digits with
      | ([], _) => (none, cs)
      | (ds, after) =>
        let n : Int := digitsValue ds
        (some (if negative then -n else n), after)
    else (none, cs)
  | [] => (none, cs)

/-- The floating-point number nearest to `digits · 10 ^ exponent`. -/
def nearestFloat (negative : Bool) (digits : Nat) (exponent : Int) : Float :=
  let bounded : Int := max (-2000 - (Nat.log2 (digits + 1) : Int)) (min 2000 exponent)
  let x := if bounded < 0 then Float.ofScientific digits true bounded.natAbs
    else Float.ofScientific digits false bounded.natAbs
  if negative then -x else x

/-- A number without its sign. -/
def readMagnitude (negative : Bool) (cs : List Char) : Option (Value × List Char) :=
  match takeWhole cs with
  | ([], _) => none
  | (digits, afterWhole) =>
    let (fraction, afterFraction) := takeFraction afterWhole
    let (exponent?, rest) := takeExponent afterFraction
    if fraction.isEmpty && exponent?.isNone then
      if digits.length ≤ maxDigits then
        let n : Int := digitsValue digits
        some (.int (if negative then -n else n), rest)
      else none
    else
      let value := digitsValue (digits ++ fraction)
      some (.float (nearestFloat negative value (exponent?.getD 0 - fraction.length)), rest)

/-! ### Values -/

mutual

/-- The value at the front. The fuel bounds the nesting and the number of parts together. -/
def readValue : Nat → List Char → Option (Value × List Char)
  | 0, _ => none
  | fuel + 1, cs =>
    match cs with
    | '"' :: rest => (readChars rest).map fun (text, rest) => (.str (String.ofList text), rest)
    | '{' :: rest =>
      match skipSpace rest with
      | '}' :: after => some (.table [], after)
      | body =>
        (readFields fuel body).map fun (fields, rest) => (.table (Keyed.ofList fields), rest)
    | '[' :: rest =>
      match skipSpace rest with
      | ']' :: after => some (.list [], after)
      | body => (readItems fuel body).map fun (items, rest) => (.list items, rest)
    | 'n' :: 'u' :: 'l' :: 'l' :: rest => some (.null, rest)
    | 't' :: 'r' :: 'u' :: 'e' :: rest => some (.bool true, rest)
    | 'f' :: 'a' :: 'l' :: 's' :: 'e' :: rest => some (.bool false, rest)
    | 'N' :: 'a' :: 'N' :: rest => some (.float (0.0 / 0.0), rest)
    | 'I' :: 'n' :: 'f' :: 'i' :: 'n' :: 'i' :: 't' :: 'y' :: rest =>
      some (.float (1.0 / 0.0), rest)
    | '-' :: 'I' :: 'n' :: 'f' :: 'i' :: 'n' :: 'i' :: 't' :: 'y' :: rest =>
      some (.float (-1.0 / 0.0), rest)
    | '-' :: rest => readMagnitude true rest
    | rest => readMagnitude false rest

/-- The items of a list up to its closing bracket. -/
def readItems : Nat → List Char → Option (List Value × List Char)
  | 0, _ => none
  | fuel + 1, cs => do
    let (v, rest) ← readValue fuel cs
    match skipSpace rest with
    | ']' :: after => return ([v], after)
    | ',' :: more =>
      let (items, after) ← readItems fuel (skipSpace more)
      return (v :: items, after)
    | _ => none

/-- The fields of a table up to its closing brace. -/
def readFields : Nat → List Char → Option (List (String × Value) × List Char)
  | 0, _ => none
  | fuel + 1, cs => do
    match cs with
    | '"' :: rest =>
      let (name, rest) ← readChars rest
      match skipSpace rest with
      | ':' :: rest =>
        let (v, rest) ← readValue fuel (skipSpace rest)
        let field := (String.ofList name, v)
        match skipSpace rest with
        | '}' :: after => return ([field], after)
        | ',' :: more =>
          let (fields, after) ← readFields fuel (skipSpace more)
          return (field :: fields, after)
        | _ => none
      | _ => none
    | _ => none

end

/-- The value that a whole document writes. -/
def read? (s : String) : Option Value := do
  let cs := s.toList
  let (v, rest) ← readValue (cs.length + 1) (skipSpace cs)
  if (skipSpace rest).isEmpty then some v else none

/-! ### Nesting -/

mutual

/-- Whether the value at the front opens more brackets inside each other than there is room for,
before anything else is wrong with it. -/
def valueTooDeep : Nat → Nat → List Char → Bool
  | 0, _, _ => false
  | fuel + 1, room, cs =>
    match cs with
    | '{' :: rest =>
      match room with
      | 0 => true
      | room + 1 =>
        match skipSpace rest with
        | '}' :: _ => false
        | body => fieldsTooDeep fuel room body
    | '[' :: rest =>
      match room with
      | 0 => true
      | room + 1 =>
        match skipSpace rest with
        | ']' :: _ => false
        | body => itemsTooDeep fuel room body
    | _ => false

def itemsTooDeep : Nat → Nat → List Char → Bool
  | 0, _, _ => false
  | fuel + 1, room, cs =>
    valueTooDeep fuel room cs ||
      match readValue fuel cs with
      | none => false
      | some (_, rest) =>
        match skipSpace rest with
        | ',' :: more => itemsTooDeep fuel room (skipSpace more)
        | _ => false

def fieldsTooDeep : Nat → Nat → List Char → Bool
  | 0, _, _ => false
  | fuel + 1, room, cs =>
    match cs with
    | '"' :: rest =>
      match readChars rest with
      | none => false
      | some (_, rest) =>
        match skipSpace rest with
        | ':' :: rest =>
          valueTooDeep fuel room (skipSpace rest) ||
            match readValue fuel (skipSpace rest) with
            | none => false
            | some (_, rest) =>
              match skipSpace rest with
              | ',' :: more => fieldsTooDeep fuel room (skipSpace more)
              | _ => false
        | _ => false
    | _ => false

end

/-- Whether a document opens more brackets inside its outermost ones than there is room for, before
anything else is wrong with it. -/
def tooDeep (room : Nat) (s : String) : Bool :=
  let cs := s.toList
  valueTooDeep (cs.length + 1) (room + 1) (skipSpace cs)

/-- The room where nothing else is said. -/
def usualRoom : Nat := 900

end JsxAudit.Data.Json
