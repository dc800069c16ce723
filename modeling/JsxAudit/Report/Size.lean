/-!
Sizes of files in units of 1024.

A size of 1024 bytes or more is first taken to the nearest number that 53 bits can hold, then
divided by the unit, which loses nothing. Sizes are shown with one decimal place. Both rest on the
rounding of exact quotients. No file is so large that the exponent of a binary number would not do,
and the exponent has no limit here.
-/

namespace JsxAudit.Decimal

/-- The whole number nearest to `num / den`; a half goes to the even neighbour. -/
def roundDiv (num den : Nat) : Nat :=
  let q := num / den
  let r := num % den
  if 2 * r < den then q
  else if den < 2 * r then q + 1
  else if q % 2 = 0 then q else q + 1

/-- The significand of the widest binary numbers that sizes are counted in. -/
def significandBits : Nat := 53

/-- The number nearest to `n` whose significand fits into 53 bits. -/
def toSignificand (n : Nat) : Nat :=
  let excess := Nat.log2 n + 1 - significandBits
  let unit := 1 <<< excess
  roundDiv n unit * unit

/-- A quotient with one decimal place. -/
def onePlace (num den : Nat) : String :=
  let tenths := roundDiv (10 * num) den
  toString (tenths / 10) ++ "." ++ toString (tenths % 10)

end JsxAudit.Decimal

namespace JsxAudit.Report

open Decimal

def kilobyte : Nat := 1024

def megabyte : Nat := 1024 * kilobyte

def gigabyte : Nat := 1024 * megabyte

/-- The unit in which a size is shown, and its name. -/
def unitFor (size : Nat) : Nat × String :=
  if size < megabyte then (kilobyte, "KB")
  else if size < gigabyte then (megabyte, "MB")
  else (gigabyte, "GB")

/-- A size as it is shown. -/
def sizeText (size : Int) : String :=
  if size ≤ 0 then "0 B"
  else
    let n := size.toNat
    if n < kilobyte then onePlace n 1 ++ " B"
    else
      let rounded := toSignificand n
      let (unit, name) := unitFor rounded
      onePlace rounded unit ++ " " ++ name

end JsxAudit.Report
