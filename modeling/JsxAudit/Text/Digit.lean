import JsxAudit.Text.Blank

/-!
Decimal digits of any script, and whole numbers written with them.

Every script that has decimal digits keeps its ten together and in order, so its zero stands for all
of them.
-/

namespace JsxAudit.Text

/-- The zero of each set of ten decimal digits of Unicode 14. -/
def digitZeros : List Nat := [
  0x30, 0x660, 0x6f0, 0x7c0, 0x966, 0x9e6, 0xa66, 0xae6, 0xb66, 0xbe6,
  0xc66, 0xce6, 0xd66, 0xde6, 0xe50, 0xed0, 0xf20, 0x1040, 0x1090, 0x17e0,
  0x1810, 0x1946, 0x19d0, 0x1a80, 0x1a90, 0x1b50, 0x1bb0, 0x1c40, 0x1c50, 0xa620,
  0xa8d0, 0xa900, 0xa9d0, 0xa9f0, 0xaa50, 0xabf0, 0xff10, 0x104a0, 0x10d30, 0x11066,
  0x110f0, 0x11136, 0x111d0, 0x112f0, 0x11450, 0x114d0, 0x11650, 0x116c0, 0x11730, 0x118e0,
  0x11950, 0x11c50, 0x11d50, 0x11da0, 0x16a60, 0x16ac0, 0x16b50, 0x1d7ce, 0x1d7d8, 0x1d7e2,
  0x1d7ec, 0x1d7f6, 0x1e140, 0x1e2f0, 0x1e950, 0x1fbf0]

/-- The value of a decimal digit. -/
def digitValue? (c : Char) : Option Nat :=
  (digitZeros.find? fun first => first ≤ c.toNat && c.toNat < first + 10).map (c.toNat - ·)

def isDecimalDigit (c : Char) : Bool :=
  (digitValue? c).isSome

/-- Whole numbers of more digits are refused. -/
def maxIntegerDigits : Nat := 4300

/-- Digits with single underscores between them: the number they denote and how many they are. -/
def readDigits (value count : Nat) : List Char → Option (Nat × Nat)
  | [] => if count = 0 then none else some (value, count)
  | '_' :: c :: rest =>
    if count = 0 then none
    else match digitValue? c with
      | some d => readDigits (10 * value + d) (count + 1) rest
      | none => none
  | c :: rest =>
    match digitValue? c with
    | some d => readDigits (10 * value + d) (count + 1) rest
    | none => none

/-- Blanks that may surround a whole number: all but the four information separators. -/
def isNumberBlank (c : Char) : Bool :=
  isBlank c && !(0x1C ≤ c.toNat && c.toNat ≤ 0x1F)

/-- A whole number: an optional sign and decimal digits of any script, single underscores allowed
between them and blanks around them, at most `maxIntegerDigits` digits in all. -/
def readInteger? (s : String) : Option Int :=
  let body := (trimMatching isNumberBlank s).toList
  let (negative, digits) := match body with
    | '-' :: rest => (true, rest)
    | '+' :: rest => (false, rest)
    | rest => (false, rest)
  match readDigits 0 0 digits with
  | some (value, count) =>
    if count ≤ maxIntegerDigits then some (if negative then -value else value) else none
  | none => none

end JsxAudit.Text
