/-!
The shortest decimal that reads back as a given binary floating-point number.

A number is `m · 2 ^ q`. The reals that round to it form an interval around it, whose ends belong
to it when `m` is even. `shortest` looks for the fewest digits with which a decimal lies in that
interval and takes the nearest such decimal. `Notation` decides how the digits are written: values
from one ten-thousandth up to ten to the sixteenth stand in positional notation with at least one
decimal place, others with an exponent of at least two digits.
-/

namespace JsxAudit.Decimal

/-- A positive finite binary number: `significand · 2 ^ exponent`. -/
structure Binary where
  significand : Nat
  exponent : Int

/-- A decimal number: `digits · 10 ^ exponent`. -/
structure Numeral where
  digits : Nat
  exponent : Int

/-! ### Powers -/

def twoTo (e : Nat) : Nat := Nat.pow 2 e

def tenTo (e : Nat) : Nat := Nat.pow 10 e

/-! ### Decoding -/

/-- The significand and exponent in the bit pattern of a finite number, its sign left out. -/
def Binary.ofBits (bits : Nat) : Binary :=
  let fraction : Nat := bits % twoTo 52
  let biased : Nat := bits / twoTo 52 % 2048
  if biased = 0 then ⟨fraction, -1074⟩ else ⟨twoTo 52 + fraction, (biased : Int) - 1075⟩

/-- `num · 2 ^ e` as a quotient of whole numbers. -/
def scaleTwo (num : Nat) (e : Int) : Nat × Nat :=
  if 0 ≤ e then (num * twoTo e.toNat, 1) else (num, twoTo (-e).toNat)

/-- Multiplied by a power of ten. -/
def scaleTen (v : Nat × Nat) (e : Int) : Nat × Nat :=
  if 0 ≤ e then (v.1 * tenTo e.toNat, v.2) else (v.1, v.2 * tenTo (-e).toNat)

/-! ### Search -/

/-- The numbers at a quarter of the significand's unit that bound the interval, below and above. -/
def Binary.ends (b : Binary) : Nat × Nat :=
  let below := if b.significand = twoTo 52 ∧ b.exponent ≠ -1074 then 1 else 2
  (4 * b.significand - below, 4 * b.significand + 2)

/-- `d · 10 ^ e` rounds to the number. -/
def Binary.covers (b : Binary) (d : Nat) (e : Int) : Bool :=
  let (low, high) := b.ends
  let (n, k) := scaleTen (d, 1) e
  let (lowNum, lowDen) := scaleTwo low (b.exponent - 2)
  let (highNum, highDen) := scaleTwo high (b.exponent - 2)
  if b.significand % 2 = 0 then lowNum * k ≤ n * lowDen && n * highDen ≤ highNum * k
  else lowNum * k < n * lowDen && n * highDen < highNum * k

/-- The exponent of the leading decimal digit of a quotient. -/
def leadingExponent (v : Nat × Nat) : Int :=
  if v.2 ≤ v.1 then (toString (v.1 / v.2)).length - 1
  else
    let guess : Int := -((toString (v.2 / v.1)).length : Int)
    let (n, k) := scaleTen v (-guess - 1)
    if k ≤ n then guess + 1 else guess

/-- The decimals of `places` digits next to the number that round to it, the nearer one first. -/
def Binary.neighbour? (b : Binary) (places : Nat) : Option Numeral :=
  let v := scaleTwo b.significand b.exponent
  let e := leadingExponent v + 1 - places
  let (n, k) := scaleTen v (-e)
  let down := n / k
  let distance := 2 * (n % k)
  let up := down + 1
  let first := if distance < k ∨ (distance = k ∧ down % 2 = 0) then down else up
  let second := if first = down then up else down
  if b.covers first e then some ⟨first, e⟩
  else if b.covers second e then some ⟨second, e⟩
  else none

/-- The decimal with the fewest digits that reads back as the number. -/
def Binary.shortest (b : Binary) : Numeral :=
  ((List.range 17).findSome? fun i => b.neighbour? (i + 1)).getD ⟨0, 0⟩

/-! ### Notation -/

/-- Digits without the zeros that end them. -/
def trimZeros (digits : List Char) : List Char :=
  (digits.reverse.dropWhile (· == '0')).reverse

/-- A decimal in the notation that its size asks for. -/
def Numeral.written (d : Numeral) : String :=
  let all := (toString d.digits).toList
  let digits := trimZeros all
  let point : Int := all.length + d.exponent
  let text :=
    if point ≤ -4 ∨ 16 < point then
      let e := point - 1
      let mark := if e < 0 then '-' else '+'
      let exponent := toString e.natAbs
      let exponent := if exponent.length < 2 then "0" ++ exponent else exponent
      let fraction := if digits.length ≤ 1 then [] else '.' :: digits.drop 1
      digits.take 1 ++ fraction ++ 'e' :: mark :: exponent.toList
    else if point ≤ 0 then
      '0' :: '.' :: List.replicate (-point).toNat '0' ++ digits
    else if digits.length ≤ point.toNat then
      digits ++ List.replicate (point.toNat - digits.length) '0' ++ ['.', '0']
    else digits.take point.toNat ++ '.' :: digits.drop point.toNat
  String.ofList text

/-- A floating-point number in its shortest form. -/
def shortestText (x : Float) : String :=
  let bits := x.toBits.toNat
  let negative := twoTo 63 ≤ bits
  let magnitude := bits % twoTo 63
  let text :=
    if magnitude / twoTo 52 = 2047 then (if magnitude % twoTo 52 = 0 then "inf" else "nan")
    else if magnitude = 0 then "0.0"
    else (Binary.ofBits magnitude).shortest.written
  if negative && text != "nan" then "-" ++ text else text

/-- The whole part of a finite number, its fraction dropped. -/
def truncate? (x : Float) : Option Int :=
  let bits := x.toBits.toNat
  let magnitude := bits % twoTo 63
  if magnitude / twoTo 52 = 2047 then none
  else
    let b := Binary.ofBits magnitude
    let (n, k) := scaleTwo b.significand b.exponent
    some (if twoTo 63 ≤ bits then -((n / k : Nat) : Int) else (n / k : Nat))

end JsxAudit.Decimal
