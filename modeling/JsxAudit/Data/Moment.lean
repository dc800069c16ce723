/-!
Moments and their text: date and time of day in universal time.

Days are counted in the calendar of four hundred years that begins with March, in which the leap
day is the last day of a year.
-/

namespace JsxAudit.Data

/-- Time since the beginning of 1970. -/
structure Moment where
  seconds : Nat
  micros : Nat := 0

/-- A day of the calendar. -/
structure Date where
  year : Nat
  month : Nat
  day : Nat
  deriving DecidableEq, Repr

/-- Days from the first of March of the year zero to the first day of 1970. -/
def daysBeforeEpoch : Nat := 719468

/-- The day that comes a number of days after the first day of 1970. -/
def Date.ofDays (days : Nat) : Date :=
  let day := days + daysBeforeEpoch
  let cycle := day / 146097
  let inCycle := day % 146097
  let year := (inCycle - inCycle / 1460 + inCycle / 36524 - inCycle / 146096) / 365
  let inYear := inCycle - (365 * year + year / 4 - year / 100)
  let march := (5 * inYear + 2) / 153
  { year := year + 400 * cycle + (if march < 10 then 0 else 1)
    month := if march < 10 then march + 3 else march - 9
    day := inYear - (153 * march + 2) / 5 + 1 }

/-- A number in at least some digits. -/
def padded (width n : Nat) : String :=
  let digits := toString n
  String.ofList (List.replicate (width - digits.length) '0') ++ digits

/-- Date, time of day and offset. Whole seconds are written without a fraction. -/
def Moment.text (m : Moment) : String :=
  let date := Date.ofDays (m.seconds / 86400)
  let second := m.seconds % 86400
  padded 4 date.year ++ "-" ++ padded 2 date.month ++ "-" ++ padded 2 date.day ++ "T" ++
    padded 2 (second / 3600) ++ ":" ++ padded 2 (second / 60 % 60) ++ ":" ++
    padded 2 (second % 60) ++
    (if m.micros = 0 then "" else "." ++ padded 6 m.micros) ++ "+00:00"

example : Date.ofDays 0 = ⟨1970, 1, 1⟩ := by decide

example : Date.ofDays 11016 = ⟨2000, 2, 29⟩ := by decide

example : Date.ofDays 19724 = ⟨2024, 1, 2⟩ := by decide

end JsxAudit.Data
