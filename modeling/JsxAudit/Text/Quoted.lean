import JsxAudit.Text.PrintableTable
import JsxAudit.Text.Casing

/-!
Quoted texts, as messages show the values they complain about.

A text stands between single quotes, or between double quotes if it has a single quote and no
double one. The quote that surrounds it, the backslash and every character without a visible form
are escaped.
-/

namespace JsxAudit.Text.Quoted

/-- The single quote. -/
def single : Char := Char.ofNat 39

/-- The quote to put around characters. -/
def mark (cs : List Char) : Char :=
  if cs.contains single && !cs.contains '"' then '"' else single

/-- Lowercase hexadecimal digits of a number, at least `width` of them. -/
def hexDigits (width n : Nat) : List Char :=
  let digits := Nat.toDigits 16 n
  List.replicate (width - digits.length) '0' ++ digits

/-- One character between quotes of the kind `quote`. -/
def escapeChar (quote c : Char) : List Char :=
  if c == quote || c == '\\' then ['\\', c]
  else if c == '\t' then ['\\', 't']
  else if c == '\n' then ['\\', 'n']
  else if c == '\r' then ['\\', 'r']
  else if inRanges unprintableRanges c.toNat then
    if c.toNat < 0x100 then '\\' :: 'x' :: hexDigits 2 c.toNat
    else if c.toNat < 0x10000 then '\\' :: 'u' :: hexDigits 4 c.toNat
    else '\\' :: 'U' :: hexDigits 8 c.toNat
  else [c]

/-- Characters between quotes. -/
def encode (cs : List Char) : List Char :=
  mark cs :: cs.flatMap (escapeChar (mark cs)) ++ [mark cs]

end Quoted

/-- A text between quotes, its special characters escaped. -/
def quoted (s : String) : String :=
  String.ofList (Quoted.encode s.toList)

end JsxAudit.Text
