import JsxAudit.Audit.Violation
import JsxAudit.Source.Element
import JsxAudit.Text.Word

/-!
Finding the place of a fix again: an element by offset or line, a line by its number, bytes by
their content.
-/

namespace JsxAudit.Repair

open Source Audit

/-! ### Elements -/

/-- The name in an opening tag at the front of a text. -/
def openingName? (s : String) : Option String :=
  match s.toList with
  | '<' :: c :: rest =>
    if c.isAlpha then
      some (String.ofList (c :: rest.takeWhile fun x =>
        Text.isWordChar x || x == '.' || x == ':' || x == '-'))
    else none
  | _ => none

/-- The tag that a violation was raised on, or the one in its source. -/
def expectedTag? (v : Violation) : Option String :=
  (v.tag.filter (· != "")).or (openingName? v.element)

/-- The element that opens at the anchor, or the first one on the line; with a tag if one is
given. -/
def locate? (f : SourceFile) (v : Violation) (tag? : Option String) : Option Element :=
  let fits (e : Element) : Bool := tag?.all (· = e.tag)
  ((v.anchor.bind fun a => f.elementAt? a).filter fits).or
    (f.elements.find? fun e => fits e && e.position.1 = v.line)

def element? (f : SourceFile) (v : Violation) : Option Element :=
  locate? f v (expectedTag? v)

/-! ### Lines -/

/-- Offset of the first line break from `start` on. -/
def nextBreak? (bytes : List UInt8) (start : Nat) : Option Nat :=
  ((bytes.drop start).findIdx? (· == 10)).map (start + ·)

/-- Offset where the line `count` lines after the one at `start` begins. -/
def lineStart? (bytes : List UInt8) (start : Nat) : Nat → Option Nat
  | 0 => some start
  | count + 1 => (nextBreak? bytes start).bind fun i => lineStart? bytes (i + 1) count

/-- The byte range of a line, its line break included. -/
def lineSpan? (f : SourceFile) (line : Nat) : Option (Nat × Nat) := do
  let start ← lineStart? f.bytes 0 (line - 1)
  return (start, ((nextBreak? f.bytes start).map (· + 1)).getD f.bytes.length)

/-! ### Bytes -/

/-- Number of bytes before the first occurrence of `part`. -/
def findBytes? (part : List UInt8) : List UInt8 → Option Nat
  | [] => if part.isEmpty then some 0 else none
  | b :: rest =>
    if part.isPrefixOf (b :: rest) then some 0 else (findBytes? part rest).map (· + 1)

/-- Offset of the first occurrence of `part` inside a range. -/
def findWithin? (bytes part : List UInt8) (start stop : Nat) : Option Nat :=
  (findBytes? part (Text.slice bytes start stop)).map (start + ·)

end JsxAudit.Repair
