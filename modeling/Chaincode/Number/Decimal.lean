/-!
# Decimal integer texts

Reading an integer of a bounded range from decimal text. The text is an optional sign followed by
ASCII digits: one leading `+` is allowed, a leading `-` only when the range holds negative
numbers, and nothing else (no blanks, no digit separators, no other scripts' digits). Digits are
read one at a time, most significant first; a digit that is not a digit is reported before the
range is checked, and the range is checked after every digit, so a text that leaves the range
fails there even when garbage follows.
-/

namespace Chaincode.Number

/-- Why a text is not an integer of the range. -/
inductive IntError where
  /-- The text is empty. -/
  | empty
  /-- A character is not a digit, or a sign stands alone. -/
  | invalidDigit
  /-- The value grows past the upper bound. -/
  | tooLarge
  /-- The value falls below the lower bound. -/
  | tooSmall
  deriving DecidableEq, Repr

/-- The usual wording of each failure. -/
def IntError.message : IntError → String
  | .empty => "cannot parse integer from empty string"
  | .invalidDigit => "invalid digit found in string"
  | .tooLarge => "number too large to fit in target type"
  | .tooSmall => "number too small to fit in target type"

/-- The value of an ASCII digit. -/
def digitValue? (c : Char) : Option Nat :=
  if '0' ≤ c ∧ c ≤ '9' then some (c.toNat - 48) else none

/-- Accumulates digits onto `acc`, away from zero in the direction `negative` gives, checking the
range `[lo, hi]` after each digit. -/
def accumulate (lo hi : Int) (negative : Bool) (acc : Int) : List Char → Except IntError Int
  | [] => .ok acc
  | c :: rest =>
    match digitValue? c with
    | none => .error .invalidDigit
    | some d =>
      let next := if negative then acc * 10 - d else acc * 10 + d
      if next < lo then .error .tooSmall
      else if hi < next then .error .tooLarge
      else accumulate lo hi negative next rest

/-- Reads the characters of a decimal text as an integer in `[lo, hi]`. A `-` sign is a sign only
when `lo` is negative; otherwise it is a character that is not a digit. -/
def parseIntChars (lo hi : Int) : List Char → Except IntError Int
  | [] => .error .empty
  | ['+'] => .error .invalidDigit
  | ['-'] => .error .invalidDigit
  | '+' :: rest => accumulate lo hi false 0 rest
  | '-' :: rest => if lo < 0 then accumulate lo hi true 0 rest else .error .invalidDigit
  | cs => accumulate lo hi false 0 cs

/-- Reads a decimal text as an integer in `[lo, hi]`. -/
def parseInt (lo hi : Int) (s : String) : Except IntError Int :=
  parseIntChars lo hi s.toList

/-- The words `true` and `false` are the only boolean texts. -/
def parseBool (s : String) : Except Unit Bool :=
  if s = "true" then .ok true
  else if s = "false" then .ok false
  else .error ()

/-- The wording of a text that is not a boolean. -/
def boolErrorMessage : String := "provided string was not `true` or `false`"

end Chaincode.Number
