import JsxAudit.Data.JsonReader
import JsxAudit.Http.Url
import JsxAudit.Text.Utf8

/-!
Requests, replies, and a network as seen from one program.

A network answers a request in view of the requests sent before it. It also knows how addresses are
written, where a reply sends the asker, and which document a body writes: all of this is given from
outside. The trace keeps what has been sent and how long the program has paused, in order.
-/

namespace JsxAudit.Http

open Data

inductive Method where
  | get | post
  deriving DecidableEq, Repr

def Method.name : Method → String
  | .get => "GET"
  | .post => "POST"

structure Request where
  method : Method
  url : String
  headers : List (String × String) := []
  body : Option Value := none

/-- A reply, its body in the pieces in which it arrives, or the reason why there is none. -/
inductive Reply where
  | response (status : Nat) (headers : List (String × String)) (chunks : List (List UInt8))
  | failed (message : String)

/-! ### Bodies -/

/-- How the characters of a body are written. -/
inductive Encoding where
  | utf8
  | utf16 (bigEndian : Bool)
  | utf32 (bigEndian : Bool)
  deriving DecidableEq, Repr

/-- The encoding of a document that begins with some bytes, and the length of the mark in front. A
document without a mark begins with a character of one byte, so that the zeros show the encoding. -/
def Encoding.ofBytes : List UInt8 → Encoding × Nat
  | 0 :: 0 :: 0xFE :: 0xFF :: _ => (.utf32 true, 4)
  | 0xFF :: 0xFE :: 0 :: 0 :: _ => (.utf32 false, 4)
  | 0xFE :: 0xFF :: _ => (.utf16 true, 2)
  | 0xFF :: 0xFE :: _ => (.utf16 false, 2)
  | 0xEF :: 0xBB :: 0xBF :: _ => (.utf8, 3)
  | 0 :: 0 :: _ :: _ :: _ => (.utf32 true, 0)
  | 0 :: _ :: _ :: _ :: _ => (.utf16 true, 0)
  | _ :: 0 :: 0 :: 0 :: _ => (.utf32 false, 0)
  | _ :: 0 :: _ :: _ :: _ => (.utf16 false, 0)
  | [0, _] => (.utf16 true, 0)
  | [_, 0] => (.utf16 false, 0)
  | _ => (.utf8, 0)

/-- The numbers that pairs of digits write to a base, if no digit is left over. -/
def pairUp? (base : Nat) (bigEndian : Bool) : List Nat → Option (List Nat)
  | [] => some []
  | [_] => none
  | a :: b :: rest =>
    (pairUp? base bigEndian rest).map ((if bigEndian then base * a + b else a + base * b) :: ·)

/-- The numbers of two bytes each. -/
def codeUnits? (bigEndian : Bool) (bytes : List UInt8) : Option (List Nat) :=
  pairUp? 0x100 bigEndian (bytes.map UInt8.toNat)

/-- The characters of code units, two of which may write one. -/
def ofCodeUnits : List Nat → List Char
  | high :: low :: rest =>
    if Json.isHighSurrogate high && Json.isLowSurrogate low then
      Json.joinSurrogates high low :: ofCodeUnits rest
    else Json.charOfUnit high :: ofCodeUnits (low :: rest)
  | [n] => [Json.charOfUnit n]
  | [] => []

/-- The text that bytes write in an encoding. -/
def Encoding.decode? (bytes : List UInt8) : Encoding → Option String
  | .utf8 => Text.decode? bytes
  | .utf16 bigEndian => do
    return String.ofList (ofCodeUnits (← codeUnits? bigEndian bytes))
  | .utf32 bigEndian => do
    let points ← pairUp? 0x10000 bigEndian (← codeUnits? bigEndian bytes)
    if points.all (· < 0x110000) then some (String.ofList (points.map Json.charOfUnit)) else none

/-- The JSON document of a body. -/
def documentOf? (body : List UInt8) : Option Value :=
  let (encoding, mark) := Encoding.ofBytes body
  (Encoding.decode? (body.drop mark) encoding).bind Json.read?

/-! ### Networks -/

/-- What is behind the requests of a program. -/
structure Network where
  /-- The reply to a request in view of the requests before it. -/
  reply : List Request → Request → Reply
  /-- An address as it is sent. -/
  normal : String → String := Url.normalText
  /-- Where a reply with a status and headers sends the asker of an address. -/
  redirect? : String → Nat → List (String × String) → Option String := Url.redirect?
  /-- Most redirections that are followed. -/
  maxRedirects : Nat := 20
  /-- The document that a body writes, if it is JSON. -/
  document? : List UInt8 → Option Value := documentOf?

/-- What has been sent, and the seconds of each pause. -/
structure Trace where
  sent : List Request := []
  pauses : List Nat := []

/-- Send a request and wait for the reply. -/
def Network.send (net : Network) (r : Request) (t : Trace) : Reply × Trace :=
  (net.reply t.sent r, { t with sent := t.sent ++ [r] })

/-- Pause for some seconds. -/
def Trace.pause (seconds : Nat) (t : Trace) : Trace :=
  { t with pauses := t.pauses ++ [seconds] }

/-- The status of a request that has been carried out. -/
def isSuccess (status : Nat) : Bool :=
  200 ≤ status && status < 300

end JsxAudit.Http
