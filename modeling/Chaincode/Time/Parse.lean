import Chaincode.Time.Timestamp
import Chaincode.Text.Blank

/-!
# Reading timestamps

Reading an RFC 3339 date and time, leniently: blanks may stand before each number and after the
seconds, the fields may have fewer digits than RFC 3339 asks (the year at most four unless it
carries a sign), the date and time may be separated by `T`, `t` or a space, the offset may be
`Z`, `z`, `UTC` in any case, or a sign with hours and minutes (the colon optional, the minus
sign U+2212 accepted), and blanks may follow. Second 60 is a leap second. The instant is then
moved to UTC.

Failures are classified: the input ends too early, holds a character that does not fit, holds
a field out of its range or names a date that does not exist (years run from -262143 to 262142),
goes on after the offset, or names an instant that falls outside those years once moved to UTC.

`parseStrict` reads the exact RFC 3339 form instead: no blanks, four digits of year and two of
every other field, the offset `Z` or a sign with hours, a colon and minutes, at most 23:59 away
from UTC, and nothing after it. A text shorter than `YYYY-MM-DDTHH:MM:SS` ends too early; a
longer one is judged part by part, the date before the time and the time before the offset, so
that a date that does not exist is reported even when the time after it is malformed.
-/

namespace Chaincode.Timestamp

open Text

/-- Why a text is not a timestamp. -/
inductive ParseError where
  | outOfRange
  | invalid
  | tooShort
  | tooLong
  | impossible
  deriving DecidableEq, Repr

/-- The wording of each failure. -/
def ParseError.message : ParseError → String
  | .outOfRange => "input is out of range"
  | .invalid => "input contains invalid characters"
  | .tooShort => "premature end of input"
  | .tooLong => "trailing input"
  | .impossible => "no possible date and time matching input"

/-- Whether a character is an ASCII digit. -/
def isDigitChar (c : Char) : Bool := '0' ≤ c && c ≤ '9'

/-- The number of UTF-8 bytes of some characters. -/
def byteLength (cs : List Char) : Nat := cs.foldl (fun n c => n + c.utf8Size) 0

/-- The characters without leading blanks. -/
def skipBlanks (cs : List Char) : List Char := cs.dropWhile isBlank

/-- The value of a run of decimal digits, refusing values past the 64-bit signed range. -/
def digitsValue (ds : List Char) : Except ParseError Int :=
  let v : Int := ds.foldl (fun n c => n * 10 + ((c.toNat - 48 : Nat) : Int)) 0
  if v > 9223372036854775807 then .error .outOfRange else .ok v

/-- A number of at least one and at most `max` digits (no bound when none), and what follows. -/
def scanNumber (s : List Char) (max : Option Nat) : Except ParseError (Int × List Char) :=
  match s with
  | [] => .error .tooShort
  | c :: _ =>
    if !isDigitChar c then .error .invalid
    else
      let limit := max.getD s.length
      let ds := (s.take limit).takeWhile isDigitChar
      (digitsValue ds).map fun v => (v, s.drop ds.length)

/-- A field of at most `width` digits after optional blanks, within `[lo, hi]`. -/
def scanField (s : List Char) (width : Nat) (lo hi : Int) :
    Except ParseError (Nat × List Char) := do
  let (v, rest) ← scanNumber (skipBlanks s) (some width)
  if v < lo ∨ hi < v then .error .outOfRange else .ok (v.toNat, rest)

/-- One literal character. -/
def expectChar (s : List Char) (c : Char) : Except ParseError (List Char) :=
  match s with
  | [] => .error .tooShort
  | d :: rest => if d = c then .ok rest else .error .invalid

/-- The year: a signed number of any length, or up to four digits without a sign. -/
def scanYear (s : List Char) : Except ParseError (Int × List Char) := do
  let s := skipBlanks s
  let (v, rest) ← match s with
    | '-' :: rest => do
      let (v, rest) ← scanNumber rest none
      pure (-v, rest)
    | '+' :: rest => scanNumber rest none
    | _ => scanNumber s (some 4)
  if v < -2147483648 ∨ 2147483647 < v then .error .outOfRange else .ok (v, rest)

/-- The nanoseconds of an optional fraction: up to nine digits count, more are skipped. -/
def scanFraction (s : List Char) : Except ParseError (Nat × List Char) :=
  match s with
  | '.' :: rest => do
    let (v, after) ← scanNumber rest (some 9)
    let used := rest.length - after.length
    let scaled := v.toNat * Nat.pow 10 (9 - used)
    pure (scaled, after.dropWhile isDigitChar)
  | _ => .ok (0, s)

/-- Two ASCII digits at the start of an offset's hours or minutes, judged byte by byte. -/
def twoDigits (s : List Char) : Except ParseError (Char × Char) :=
  if byteLength s < 2 then .error .tooShort
  else
    match s with
    | a :: b :: _ => .ok (a, b)
    | [a] => .ok (a, '\x00')
    | [] => .error .tooShort

/-- An offset from UTC in seconds: `Z`, or a sign, two digits of hours, optional colons or blanks
and two digits of minutes. -/
def scanOffset (s : List Char) : Except ParseError (Int × List Char) :=
  match s with
  | [] => .error .tooShort
  | c :: rest =>
    if c = 'Z' ∨ c = 'z' then .ok (0, rest)
    else if c = '+' ∨ c = '-' ∨ c = '−' then do
      let negative := c ≠ '+'
      let (h1, h2) ← twoDigits rest
      if !(isDigitChar h1 && isDigitChar h2) then .error .invalid
      else
        let hours := (h1.toNat - 48) * 10 + (h2.toNat - 48)
        let s := (rest.drop 2).dropWhile fun d => d = ':' || isBlank d
        match twoDigits s with
        | .error _ => .error .tooShort
        | .ok (m1, m2) =>
          if '0' ≤ m1 ∧ m1 ≤ '5' ∧ isDigitChar m2 then
            let seconds : Int := hours * 3600 + ((m1.toNat - 48) * 10 + (m2.toNat - 48)) * 60
            .ok (if negative then -seconds else seconds, s.drop 2)
          else if '6' ≤ m1 ∧ m1 ≤ '9' ∧ isDigitChar m2 then .error .outOfRange
          else .error .invalid
    else .error .invalid

/-- Whether the characters start with `UTC` in any case. -/
def startsWithUtc : List Char → Bool
  | u :: t :: c :: _ => u.toUpper = 'U' && t.toUpper = 'T' && c.toUpper = 'C'
  | _ => false

/-- Whether a year lies in the calendar's range, -262143 to 262142. -/
def inCalendar (year : Int) : Bool := -262143 ≤ year && year ≤ 262142

/-- Moves a wall-clock date and time at an offset to UTC, checking the calendar. -/
def atOffset (year : Int) (month day hour minute second nano : Nat) (offset : Int) :
    Except ParseError Timestamp :=
  if !inCalendar year ∨ day > daysInMonth year month then .error .outOfRange
  else if offset ≤ -86400 ∨ 86400 ≤ offset then .error .outOfRange
  else
    let leap := second = 60
    let wall : Int := daysFromCivil year month day * 86400 + hour * 3600 + minute * 60 +
      (if leap then 59 else second)
    let utc := wall - offset
    if !inCalendar (civilFromDays (utc / 86400)).1 then .error .impossible
    else .ok ⟨utc, nano + (if leap then 1000000000 else 0)⟩

/-- Reads a timestamp and moves it to UTC. -/
def parse (text : String) : Except ParseError Timestamp := do
  let s := text.toList
  let (year, s) ← scanYear s
  let s ← expectChar (skipBlanks s) '-'
  let (month, s) ← scanField s 2 1 12
  let s ← expectChar (skipBlanks s) '-'
  let (day, s) ← scanField s 2 1 31
  let s ← match s with
    | c :: rest => if c = 'T' ∨ c = 't' ∨ c = ' ' then pure rest else .error .invalid
    | [] => .error .tooShort
  let (hour, s) ← scanField s 2 0 23
  let s ← expectChar (skipBlanks s) ':'
  let (minute, s) ← scanField s 2 0 59
  let s ← expectChar (skipBlanks s) ':'
  let (second, s) ← scanField s 2 0 60
  let (nano, s) ← scanFraction s
  let s := skipBlanks s
  let (offset, s) ← if startsWithUtc s then pure (0, s.drop 3) else scanOffset s
  if !(skipBlanks s).isEmpty then .error .tooLong
  else atOffset year month day hour minute second nano offset

/-- Exactly `width` ASCII digits at the start, with their value and what follows. -/
def fixedDigits (s : List Char) (width : Nat) : Option (Nat × List Char) :=
  let ds := s.take width
  if ds.length = width ∧ ds.all isDigitChar then
    some (ds.foldl (fun n c => n * 10 + (c.toNat - 48)) 0, s.drop width)
  else none

/-- One literal character at the start, and what follows. -/
def literal (s : List Char) (c : Char) : Option (List Char) :=
  match s with
  | d :: rest => if d = c then some rest else none
  | [] => none

/-- The fields of `YYYY-MM-DD`, before their ranges are checked. -/
def dateFields (s : List Char) : Option ((Nat × Nat × Nat) × List Char) := do
  let (year, s) ← fixedDigits s 4
  let s ← literal s '-'
  let (month, s) ← fixedDigits s 2
  let s ← literal s '-'
  let (day, s) ← fixedDigits s 2
  pure ((year, month, day), s)

/-- The fields of `HH:MM:SS`, before their ranges are checked. -/
def timeFields (s : List Char) : Option ((Nat × Nat × Nat) × List Char) := do
  let (hour, s) ← fixedDigits s 2
  let s ← literal s ':'
  let (minute, s) ← fixedDigits s 2
  let s ← literal s ':'
  let (second, s) ← fixedDigits s 2
  pure ((hour, minute, second), s)

/-- Whether a date exists in the proleptic Gregorian calendar. -/
def isDate (year : Int) (month day : Nat) : Bool :=
  1 ≤ month && month ≤ 12 && 1 ≤ day && day ≤ daysInMonth year month

/-- Whether a time of day exists; second 60 is a leap second. -/
def isTimeOfDay (hour minute second : Nat) : Bool := hour ≤ 23 && minute ≤ 59 && second ≤ 60

/-- An offset in the exact form: `Z`, or a sign, two digits of hours, a colon and two digits of
minutes. -/
def exactOffset (s : List Char) : Except ParseError (Int × List Char) :=
  match s with
  | [] => .error .tooShort
  | c :: rest =>
    if c = 'Z' ∨ c = 'z' then .ok (0, rest)
    else if c = '+' ∨ c = '-' ∨ c = '−' then do
      let negative := c ≠ '+'
      let (h1, h2) ← twoDigits rest
      if !(isDigitChar h1 && isDigitChar h2) then .error .invalid
      else
        let hours := (h1.toNat - 48) * 10 + (h2.toNat - 48)
        let s ← expectChar (rest.drop 2) ':'
        match twoDigits s with
        | .error _ => .error .tooShort
        | .ok (m1, m2) =>
          if '0' ≤ m1 ∧ m1 ≤ '5' ∧ isDigitChar m2 then
            let seconds : Int := hours * 3600 + ((m1.toNat - 48) * 10 + (m2.toNat - 48)) * 60
            .ok (if negative then -seconds else seconds, s.drop 2)
          else if '6' ≤ m1 ∧ m1 ≤ '9' ∧ isDigitChar m2 then .error .outOfRange
          else .error .invalid
    else .error .invalid

/-- Reads a timestamp in the exact RFC 3339 form and moves it to UTC. The text is judged in
stages, and the first stage that fails names the failure: its length (at least the 19 bytes of
`YYYY-MM-DDTHH:MM:SS`), the form of the date, the date's existence, the separator, the form of
the time and of its fraction, the time's ranges, the offset, what follows the offset, and the
offset's range. -/
def parseStrict (text : String) : Except ParseError Timestamp := do
  if text.utf8ByteSize < 19 then throw .tooShort
  let some ((year, month, day), s) := dateFields text.toList | throw .invalid
  unless isDate year month day do throw .outOfRange
  let s ← match s with
    | c :: rest => if c = 'T' ∨ c = 't' ∨ c = ' ' then pure rest else throw .invalid
    | [] => throw .tooShort
  let some ((hour, minute, second), s) := timeFields s | throw .invalid
  let (nano, s) ← scanFraction s
  unless isTimeOfDay hour minute second do throw .outOfRange
  let (offset, s) ← exactOffset s
  unless s.isEmpty do throw .tooLong
  unless -86340 ≤ offset ∧ offset ≤ 86340 do throw .outOfRange
  atOffset year month day hour minute second nano offset

end Chaincode.Timestamp
