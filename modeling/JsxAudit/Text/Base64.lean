/-!
Base64 with the standard alphabet and padding.
-/

namespace JsxAudit.Text.Base64

/-- The sixty-four letters in the order of the values they stand for. -/
def alphabet : List Char :=
  "ABCDEFGHIJKLMNOPQRSTUVWXYZabcdefghijklmnopqrstuvwxyz0123456789+/".toList

def letter (n : Nat) : Char :=
  alphabet.getD (n % 64) 'A'

/-- Three bytes become four letters; one or two bytes left over are padded. -/
def encodeBytes : List UInt8 → List Char
  | a :: b :: c :: rest =>
    let n := a.toNat * 65536 + b.toNat * 256 + c.toNat
    letter (n / 262144) :: letter (n / 4096) :: letter (n / 64) :: letter n :: encodeBytes rest
  | [a, b] =>
    let n := a.toNat * 65536 + b.toNat * 256
    [letter (n / 262144), letter (n / 4096), letter (n / 64), '=']
  | [a] =>
    let n := a.toNat * 65536
    [letter (n / 262144), letter (n / 4096), '=', '=']
  | [] => []

def encode (bytes : List UInt8) : String :=
  String.ofList (encodeBytes bytes)

/-- The bytes of groups of four letters. -/
def decodeValues : List Nat → List UInt8
  | a :: b :: c :: d :: rest =>
    let n := a * 262144 + b * 4096 + c * 64 + d
    UInt8.ofNat (n / 65536) :: UInt8.ofNat (n / 256) :: UInt8.ofNat n :: decodeValues rest
  | [a, b, c] =>
    let n := a * 262144 + b * 4096 + c * 64
    [UInt8.ofNat (n / 65536), UInt8.ofNat (n / 256)]
  | [a, b] => [UInt8.ofNat ((a * 262144 + b * 4096) / 65536)]
  | _ => []

/-- The bytes that a padded text stands for; characters outside the alphabet are skipped. -/
def decode (s : String) : List UInt8 :=
  decodeValues (s.toList.filterMap fun c => alphabet.idxOf? c)

end JsxAudit.Text.Base64
