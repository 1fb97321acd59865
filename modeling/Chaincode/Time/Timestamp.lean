import Chaincode.Text.Basic

/-!
# Timestamps

An instant in UTC: whole seconds since 1970-01-01T00:00:00Z, not counting leap seconds, and the
nanoseconds past them. Nanoseconds from one billion on mean the instant lies in a leap second,
which is written as second 60 of the minute.

The calendar is the proleptic Gregorian one. `daysFromCivil` and `civilFromDays` convert between
a day count and a date by the usual era arithmetic: eras of 400 years have exactly 146097 days,
and within an era the year is taken to start on the first of March so that the leap day is the
last day of the year.

The written form is RFC 3339 in UTC: `YYYY-MM-DDTHH:MM:SS`, then a fraction of three, six or
nine digits when the nanoseconds are not zero (the fewest of those that show them exactly),
then `Z`. A year outside 0 to 9999 carries its sign and at least four digits.
-/

namespace Chaincode

/-- An instant in UTC, to the nanosecond. -/
structure Timestamp where
  /-- Whole seconds since the epoch, leap seconds not counted. -/
  seconds : Int
  /-- Nanoseconds past `seconds`; from one billion on, the instant is in a leap second. -/
  nanos : Nat
  deriving DecidableEq, Repr, Inhabited

namespace Timestamp

/-- Days from 1970-01-01 to a date of the proleptic Gregorian calendar. -/
def daysFromCivil (year : Int) (month day : Nat) : Int :=
  let y := if month ≤ 2 then year - 1 else year
  let era := y / 400
  let yoe := y - era * 400
  let mp : Int := if month > 2 then month - 3 else month + 9
  let doy := (153 * mp + 2) / 5 + day - 1
  let doe := yoe * 365 + yoe / 4 - yoe / 100 + doy
  era * 146097 + doe - 719468

/-- The date of a day counted from 1970-01-01: year, month and day of the month. -/
def civilFromDays (days : Int) : Int × Nat × Nat :=
  let z := days + 719468
  let era := z / 146097
  let doe := z - era * 146097
  let yoe := (doe - doe / 1460 + doe / 36524 - doe / 146096) / 365
  let y := yoe + era * 400
  let doy := doe - (365 * yoe + yoe / 4 - yoe / 100)
  let mp := (5 * doy + 2) / 153
  let d := doy - (153 * mp + 2) / 5 + 1
  let m := if mp < 10 then mp + 3 else mp - 9
  (if m ≤ 2 then y + 1 else y, m.toNat, d.toNat)

/-- Whether a year of the Gregorian calendar has a leap day. -/
def isLeapYear (year : Int) : Bool :=
  year % 4 = 0 && (year % 100 ≠ 0 || year % 400 = 0)

/-- The number of days of a month. -/
def daysInMonth (year : Int) (month : Nat) : Nat :=
  if month = 2 then (if isLeapYear year then 29 else 28)
  else if month = 4 ∨ month = 6 ∨ month = 9 ∨ month = 11 then 30
  else 31

/-- 2024-01-01T00:00:00Z, the instant an invocation carries when none is given. -/
def newYear2024 : Timestamp := ⟨1704067200, 0⟩

/-- The year as RFC 3339 writes it: four digits, or a sign and at least four digits outside
0 to 9999. -/
def renderYear (year : Int) : String :=
  if 0 ≤ year ∧ year ≤ 9999 then Text.padNat 4 year.toNat
  else (if year < 0 then "-" else "+") ++ Text.padNat 4 year.natAbs

/-- The fraction of a second: nothing for none, else the fewest of three, six or nine digits that
show the nanoseconds exactly. -/
def renderFraction (nano : Nat) : String :=
  if nano = 0 then ""
  else if nano % 1000000 = 0 then "." ++ Text.padNat 3 (nano / 1000000)
  else if nano % 1000 = 0 then "." ++ Text.padNat 6 (nano / 1000)
  else "." ++ Text.padNat 9 nano

/-- The RFC 3339 form in UTC, with a leap second written as second 60. -/
def render (t : Timestamp) : String :=
  let (year, month, day) := civilFromDays (t.seconds / 86400)
  let secOfDay := (t.seconds % 86400).toNat
  let leap := t.nanos ≥ 1000000000
  let second := secOfDay % 60 + (if leap then 1 else 0)
  let nano := if leap then t.nanos - 1000000000 else t.nanos
  renderYear year ++ "-" ++ Text.padNat 2 month ++ "-" ++ Text.padNat 2 day ++ "T" ++
    Text.padNat 2 (secOfDay / 3600) ++ ":" ++ Text.padNat 2 (secOfDay % 3600 / 60) ++ ":" ++
    Text.padNat 2 second ++ renderFraction nano ++ "Z"

end Timestamp

end Chaincode
