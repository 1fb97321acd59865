import Chaincode.Json.Error
import Chaincode.Json.Value
import Chaincode.Text.Utf8

/-!
# Reading JSON

The reader walks the input bytes once, left to right. Its state is the offset of the next byte;
the offset survives a failure, because the reading of an enclosing object or array still looks
at the input after a failed member, and the position of a type mismatch is taken from where the
reading stopped.

The grammar is RFC 8259. Blanks are space, tab, line feed and carriage return. A number is
classified as a natural below 2^64, a negative integer from -2^63, or a double; a double is the
significand as a double scaled by an exactly rounded power of ten, and a number whose exponent
takes it past the doubles is refused. Strings must be UTF-8, control characters inside them are
refused, and escapes of surrogates must come in pairs.

`parseValue` reads any value into a `JsonValue`, sorting object members by name (a later member
of the same name replaces an earlier one).
-/

namespace Chaincode.Json

/-- Reading JSON: the input, the offset of the next byte, and failure. -/
abbrev Reader := ReaderT (Array UInt8) (ExceptT ReadError (StateM Nat))

/-- A number as the reader classifies it. -/
inductive ParsedNumber where
  | unsigned (n : Nat)
  | signed (n : Int)
  | float (x : Float)

/-- How a mismatch message names a number. -/
def ParsedNumber.unexpected : ParsedNumber → Unexpected
  | .unsigned n => .unsigned n
  | .signed n => .signed n
  | .float x => .float x

/-- A number as a JSON value holds it. -/
def ParsedNumber.toJson : ParsedNumber → JsonNumber
  | .unsigned n => .nat n
  | .signed n => .negative n
  | .float x => .float x

/-- The byte of an ASCII character. -/
def ascii (c : Char) : UInt8 := c.toNat.toUInt8

/-- The blanks between JSON tokens. -/
def isJsonBlank (b : UInt8) : Bool := b = 0x20 || b = 0x0A || b = 0x09 || b = 0x0D

/-- An ASCII digit. -/
def isDigit (b : UInt8) : Bool := 0x30 ≤ b && b ≤ 0x39

/-- A byte that ends a run of plain string content: a quote, a backslash or a control character. -/
def isStringStop (b : UInt8) : Bool := b = 0x22 || b = 0x5C || b < 0x20

/-- The offset of the first non-blank byte from `i` on. -/
def skipBlanksFrom (inp : Array UInt8) (i : Nat) : Nat :=
  if h : i < inp.size then (if isJsonBlank inp[i] then skipBlanksFrom inp (i + 1) else i) else i
termination_by inp.size - i

/-- The offset of the first byte from `i` on that ends plain string content. -/
def skipPlainFrom (inp : Array UInt8) (i : Nat) : Nat :=
  if h : i < inp.size then (if isStringStop inp[i] then i else skipPlainFrom inp (i + 1)) else i
termination_by inp.size - i

/-- The offset of the first non-digit from `i` on. -/
def skipDigitsFrom (inp : Array UInt8) (i : Nat) : Nat :=
  if h : i < inp.size then (if isDigit inp[i] then skipDigitsFrom inp (i + 1) else i) else i
termination_by inp.size - i

/-- The line (from one) and column (bytes since the line began) of an offset. -/
def lineColumn (inp : Array UInt8) (i : Nat) : Nat × Nat :=
  let before := (inp.extract 0 i).toList
  (1 + before.count 10, (before.reverse.takeWhile (· ≠ 10)).length)

/-- The value of a hexadecimal digit. -/
def hexValue? (b : UInt8) : Option Nat :=
  if 0x30 ≤ b ∧ b ≤ 0x39 then some (b.toNat - 0x30)
  else if 0x61 ≤ b ∧ b ≤ 0x66 then some (b.toNat - 0x57)
  else if 0x41 ≤ b ∧ b ≤ 0x46 then some (b.toNat - 0x37)
  else none

/-- Ten to a power from 0 to 308 as a double, exactly rounded. -/
def powerOfTen (e : Nat) : Float := Float.ofScientific 1 false e

/-- Scales a double by a power of ten, dividing by 10^308 while the power is out of the table;
none when the result passes the largest double. -/
def scaleByTen (f : Float) (e : Int) : Nat → Option Float
  | 0 => some f
  | fuel + 1 =>
    if e.natAbs ≤ 308 then
      if e ≥ 0 then
        let g := f * powerOfTen e.natAbs
        if g.isInf then none else some g
      else some (f / powerOfTen e.natAbs)
    else if f == 0 then some f
    else if e ≥ 0 then none
    else scaleByTen (f / powerOfTen 308) (e + 308) fuel

/-- The largest value of a 64-bit unsigned integer. -/
def u64Max : Nat := 18446744073709551615

namespace Reader

/-- The input. -/
def input : Reader (Array UInt8) := read

/-- The offset of the next byte. -/
def offset : Reader Nat := getThe Nat

/-- Moves to an offset. -/
def seek (i : Nat) : Reader Unit := set i

/-- The next byte, not consumed. -/
def peek : Reader (Option UInt8) := do return (← input)[← offset]?

/-- The next byte, or NUL at the end. -/
def peekOrNull : Reader UInt8 := do return (← peek).getD 0

/-- Consumes one byte. -/
def advance : Reader Unit := modifyThe Nat (· + 1)

/-- The next byte, consumed. -/
def nextByte : Reader (Option UInt8) := do
  let b ← peek
  if b.isSome then advance
  return b

/-- Fails at a given offset. -/
def failAt {α : Type} (code : ReadErrorCode) (i : Nat) : Reader α := do
  throw ⟨code, some (lineColumn (← input) i)⟩

/-- Fails at the current offset. -/
def fail {α : Type} (code : ReadErrorCode) : Reader α := do failAt code (← offset)

/-- Fails at the byte after the next one, as failures found by looking ahead do. -/
def failAhead {α : Type} (code : ReadErrorCode) : Reader α := do
  failAt code (min ((← offset) + 1) (← input).size)

/-- A mismatch between the input and the expected type, placed later. -/
def mismatch {α : Type} (code : ReadErrorCode) : Reader α := throw ⟨code, none⟩

/-- Gives an unplaced failure the current position. -/
def place (e : ReadError) : Reader ReadError :=
  match e.position with
  | some _ => pure e
  | none => do return ⟨e.code, some (lineColumn (← input) (← offset))⟩

/-- Runs a reading, placing an unplaced failure where the reading stopped. -/
def placed {α : Type} (x : Reader α) : Reader α :=
  tryCatch x fun e => do throw (← place e)

/-- Runs a reading and reports its failure as a value, keeping the offset where it stopped. -/
def attempt {α : Type} (x : Reader α) : Reader (Except ReadError α) :=
  tryCatch (.ok <$> x) fun e => pure (.error e)

/-- The first failure of a container's contents and its closing, or the contents. -/
def finish {α : Type} : Except ReadError α → Except ReadError Unit → Reader α
  | .error e, _ => throw e
  | .ok _, .error e => throw e
  | .ok v, .ok () => pure v

/-- Skips blanks and looks at the next byte. -/
def skipWhitespace : Reader (Option UInt8) := do
  let inp ← input
  let j := skipBlanksFrom inp (← offset)
  seek j
  return inp[j]?

/-- Consumes the rest of a keyword. -/
def expectIdent : List UInt8 → Reader Unit
  | [] => pure ()
  | b :: rest => do
    match ← nextByte with
    | none => fail .eofWhileParsingValue
    | some c => if c = b then expectIdent rest else fail .expectedSomeIdent

/-- Four hexadecimal digits of a `\u` escape. -/
def hexEscape : Reader Nat := do
  let inp ← input
  let i ← offset
  if i + 4 ≤ inp.size then
    seek (i + 4)
    match hexValue? inp[i]!, hexValue? inp[i + 1]!, hexValue? inp[i + 2]!, hexValue? inp[i + 3]! with
    | some a, some b, some c, some d => pure (((a * 16 + b) * 16 + c) * 16 + d)
    | _, _, _, _ => fail .invalidEscape
  else
    seek inp.size
    fail .eofWhileParsingString

/-- The next byte inside a string, which must exist. -/
def peekInString : Reader UInt8 := do
  match ← peek with
  | some b => pure b
  | none => fail .eofWhileParsingString

/-- The UTF-8 bytes of a code point. -/
def codePointBytes (n : Nat) : List UInt8 := String.utf8EncodeChar (Char.ofNat n)

/-- A `\u` escape after its `u`: a character of the basic plane, or a surrogate pair. -/
def unicodeEscape : Reader (List UInt8) := do
  let n ← hexEscape
  if 0xDC00 ≤ n ∧ n ≤ 0xDFFF then fail .loneLeadingSurrogateInHexEscape
  else if n < 0xD800 ∨ 0xDBFF < n then pure (codePointBytes n)
  else
    if (← peekInString) = 0x5C then advance else do advance; fail .unexpectedEndOfHexEscape
    if (← peekInString) = 0x75 then advance else do advance; fail .unexpectedEndOfHexEscape
    let n2 ← hexEscape
    if n2 < 0xDC00 ∨ 0xDFFF < n2 then fail .loneLeadingSurrogateInHexEscape
    else pure (codePointBytes (0x10000 + (n - 0xD800) * 1024 + (n2 - 0xDC00)))

/-- An escape after its backslash. -/
def escape : Reader (List UInt8) := do
  match ← nextByte with
  | none => fail .eofWhileParsingString
  | some b =>
    if b = 0x22 then pure [0x22]
    else if b = 0x5C then pure [0x5C]
    else if b = 0x2F then pure [0x2F]
    else if b = 0x62 then pure [0x08]
    else if b = 0x66 then pure [0x0C]
    else if b = 0x6E then pure [0x0A]
    else if b = 0x72 then pure [0x0D]
    else if b = 0x74 then pure [0x09]
    else if b = 0x75 then unicodeEscape
    else fail .invalidEscape

/-- The bytes of a string after its opening quote, up to and including the closing quote. -/
def stringBytes : Nat → Array UInt8 → Reader (Array UInt8)
  | 0, _ => fail .eofWhileParsingString
  | fuel + 1, acc => do
    let inp ← input
    let i ← offset
    let j := skipPlainFrom inp i
    let acc := acc ++ inp.extract i j
    seek (j + 1)
    match inp[j]? with
    | none => do seek j; fail .eofWhileParsingString
    | some b =>
      if b = 0x22 then pure acc
      else if b = 0x5C then do
        let e ← escape
        stringBytes fuel (acc ++ e.toArray)
      else fail .controlCharacterWhileParsingString

/-- A string after its opening quote. Its content is judged as UTF-8 once the closing quote is
found; a failure is placed by counting back from just past that quote as many bytes as the content
has, then forward over its valid prefix. Without escapes that is just past the first byte of the
first sequence that is not UTF-8; escapes, whose content is shorter than their text, move it
further on. -/
def parseString : Reader String := do
  let bytes ← stringBytes ((← input).size + 1) #[]
  match Text.Utf8.decode bytes.toList with
  | .ok s => pure s
  | .error e => failAt .invalidUnicodeCodePoint ((← offset) + e.validUpTo - bytes.size)

/-- An escape skipped after its backslash. -/
def skipEscape : Reader Unit := do
  match ← nextByte with
  | none => fail .eofWhileParsingString
  | some b =>
    if b = 0x22 ∨ b = 0x5C ∨ b = 0x2F ∨ b = 0x62 ∨ b = 0x66 ∨ b = 0x6E ∨ b = 0x72 ∨ b = 0x74
    then pure ()
    else if b = 0x75 then do let _ ← hexEscape; pure ()
    else fail .invalidEscape

/-- A string skipped after its opening quote, without checking its UTF-8. -/
def skipString : Nat → Reader Unit
  | 0 => fail .eofWhileParsingString
  | fuel + 1 => do
    let inp ← input
    let j := skipPlainFrom inp (← offset)
    seek j
    match inp[j]? with
    | none => fail .eofWhileParsingString
    | some b =>
      if b = 0x22 then advance
      else if b = 0x5C then do advance; skipEscape; skipString fuel
      else fail .controlCharacterWhileParsingString

/-- Skips digits. -/
def skipDigits : Reader Unit := do seek (skipDigitsFrom (← input) (← offset))

/-- A double from a significand and a power of ten. -/
def floatFromParts (positive : Bool) (significand : Nat) (exponent : Int) : Reader Float :=
  match scaleByTen significand.toUInt64.toFloat exponent 8 with
  | none => fail .numberOutOfRange
  | some f => pure (if positive then f else -f)

/-- An exponent too long for 32 bits: zero for a zero significand or a negative exponent. -/
def exponentOverflow (positive zeroSignificand positiveExponent : Bool) : Reader Float := do
  if !zeroSignificand && positiveExponent then fail .numberOutOfRange
  else
    skipDigits
    pure (if positive then 0.0 else -0.0)

/-- The digits of an exponent after its first: the value, or none once it passes 2^31 - 1. -/
def exponentDigits : Nat → Nat → Reader (Option Nat)
  | 0, e => pure (some e)
  | fuel + 1, e => do
    let b ← peekOrNull
    if isDigit b then
      advance
      let next := e * 10 + (b.toNat - 0x30)
      if next > 2147483647 then pure none else exponentDigits fuel next
    else pure (some e)

/-- An exponent after its `e`, completing a double. -/
def parseExponent (positive : Bool) (significand : Nat) (start : Int) : Reader Float := do
  advance
  let b ← peekOrNull
  let positiveExponent ←
    if b = 0x2B then do advance; pure true
    else if b = 0x2D then do advance; pure false
    else pure true
  match ← nextByte with
  | none => fail .eofWhileParsingValue
  | some c =>
    if !isDigit c then fail .invalidNumber
    else
      match ← exponentDigits (← input).size (c.toNat - 0x30) with
      | none => exponentOverflow positive (significand = 0) positiveExponent
      | some e =>
        let total : Int := if positiveExponent then start + e else start - e
        let clamped := max (-2147483648) (min 2147483647 total)
        floatFromParts positive significand clamped

/-- Digits after the significand stopped growing: skipped, then an exponent or the end. -/
def decimalOverflow (positive : Bool) (significand : Nat) (exponent : Int) : Reader Float := do
  skipDigits
  let b ← peekOrNull
  if b = 0x65 ∨ b = 0x45 then parseExponent positive significand exponent
  else floatFromParts positive significand exponent

/-- The digits after a decimal point: the grown significand and how many digits it took, or
the double when the significand would pass 2^64 - 1. -/
def fractionDigits : Nat → Bool → Nat → Int → Int → Reader (Sum Float (Nat × Int))
  | 0, _, significand, _, after => pure (.inr (significand, after))
  | fuel + 1, positive, significand, before, after => do
    let b ← peekOrNull
    if isDigit b then
      let next := significand * 10 + (b.toNat - 0x30)
      if next > u64Max then .inl <$> decimalOverflow positive significand (before + after)
      else do
        advance
        fractionDigits fuel positive next before (after - 1)
    else pure (.inr (significand, after))

/-- A fraction after its decimal point, completing a double. -/
def parseDecimal (positive : Bool) (significand : Nat) (before : Int) : Reader Float := do
  advance
  match ← fractionDigits (← input).size positive significand before 0 with
  | .inl f => pure f
  | .inr (significand, after) =>
    if after = 0 then
      match ← peek with
      | some _ => failAhead .invalidNumber
      | none => failAhead .eofWhileParsingValue
    else
      let b ← peekOrNull
      if b = 0x65 ∨ b = 0x45 then parseExponent positive significand (before + after)
      else floatFromParts positive significand (before + after)

/-- The digits of an integer past 2^64 - 1, counted as powers of ten. -/
def longIntegerDigits : Nat → Bool → Nat → Int → Reader Float
  | 0, positive, significand, exponent => floatFromParts positive significand exponent
  | fuel + 1, positive, significand, exponent => do
    let b ← peekOrNull
    if isDigit b then do
      advance
      longIntegerDigits fuel positive significand (exponent + 1)
    else if b = 0x2E then parseDecimal positive significand exponent
    else if b = 0x65 ∨ b = 0x45 then parseExponent positive significand exponent
    else floatFromParts positive significand exponent

/-- What follows the digits of an integer: a fraction, an exponent, or the end of the number. -/
def numberTail (positive : Bool) (significand : Nat) : Reader ParsedNumber := do
  let b ← peekOrNull
  if b = 0x2E then .float <$> parseDecimal positive significand 0
  else if b = 0x65 ∨ b = 0x45 then .float <$> parseExponent positive significand 0
  else if positive then pure (.unsigned significand)
  else if 0 < significand ∧ significand ≤ 9223372036854775808 then
    pure (.signed (-(significand : Int)))
  else pure (.float (-significand.toUInt64.toFloat))

/-- The digits of an integer after its first. -/
def integerDigits : Nat → Bool → Nat → Reader ParsedNumber
  | 0, positive, significand => numberTail positive significand
  | fuel + 1, positive, significand => do
    let b ← peekOrNull
    if isDigit b then
      let next := significand * 10 + (b.toNat - 0x30)
      if next > u64Max then .float <$> longIntegerDigits (← input).size positive significand 0
      else do
        advance
        integerDigits fuel positive next
    else numberTail positive significand

/-- A number after its sign. -/
def parseInteger (positive : Bool) : Reader ParsedNumber := do
  match ← nextByte with
  | none => fail .eofWhileParsingValue
  | some b =>
    if b = 0x30 then
      if isDigit (← peekOrNull) then failAhead .invalidNumber else numberTail positive 0
    else if isDigit b then integerDigits (← input).size positive (b.toNat - 0x30)
    else fail .invalidNumber

/-- An exponent skipped after its `e`. -/
def skipExponent : Reader Unit := do
  advance
  let b ← peekOrNull
  if b = 0x2B ∨ b = 0x2D then advance
  match ← nextByte with
  | some c => if isDigit c then skipDigits else fail .invalidNumber
  | none => fail .invalidNumber

/-- A fraction skipped after its decimal point. -/
def skipDecimal : Reader Unit := do
  advance
  let start ← offset
  skipDigits
  if (← offset) = start then failAhead .invalidNumber
  else
    let b ← peekOrNull
    if b = 0x65 ∨ b = 0x45 then skipExponent else pure ()

/-- A number skipped after its sign. -/
def skipInteger : Reader Unit := do
  match ← nextByte with
  | some 0x30 => if isDigit (← peekOrNull) then failAhead .invalidNumber else pure ()
  | some b => if isDigit b then skipDigits else fail .invalidNumber
  | none => fail .invalidNumber
  let c ← peekOrNull
  if c = 0x2E then skipDecimal
  else if c = 0x65 ∨ c = 0x45 then skipExponent
  else pure ()

/-- Where a skip stands: expecting a value inside the given containers (innermost first), or
inside a container after its opening (`false`) or after a member (`true`). -/
inductive SkipState where
  | value (outer : List UInt8)
  | inside (frame : UInt8) (afterMember : Bool) (outer : List UInt8)

/-- The failure of a container that ends too early. -/
def eofIn (frame : UInt8) : ReadErrorCode :=
  if frame = 0x5B then .eofWhileParsingList else .eofWhileParsingObject

/-- Skips a value without building it, containers kept on an explicit stack. -/
def skipLoop : Nat → SkipState → Reader Unit
  | 0, _ => fail .recursionLimitExceeded
  | fuel + 1, .value outer => do
    match ← skipWhitespace with
    | none => failAhead .eofWhileParsingValue
    | some b =>
      if b = 0x5B ∨ b = 0x7B then do
        advance
        skipLoop fuel (.inside b false outer)
      else do
        if b = 0x6E then do advance; expectIdent [0x75, 0x6C, 0x6C]
        else if b = 0x74 then do advance; expectIdent [0x72, 0x75, 0x65]
        else if b = 0x66 then do advance; expectIdent [0x61, 0x6C, 0x73, 0x65]
        else if b = 0x2D then do advance; skipInteger
        else if isDigit b then skipInteger
        else if b = 0x22 then do advance; skipString (← input).size
        else failAhead .expectedSomeValue
        match outer with
        | [] => pure ()
        | f :: rest => skipLoop fuel (.inside f true rest)
  | fuel + 1, .inside frame afterMember outer => do
    match ← skipWhitespace with
    | none => failAhead (eofIn frame)
    | some c =>
      if c = 0x2C ∧ afterMember then do
        advance
        member fuel frame outer
      else if (c = 0x5D ∧ frame = 0x5B) ∨ (c = 0x7D ∧ frame = 0x7B) then do
        advance
        match outer with
        | [] => pure ()
        | f :: rest => skipLoop fuel (.inside f true rest)
      else if afterMember then
        failAhead (if frame = 0x5B then .expectedListCommaOrEnd else .expectedObjectCommaOrEnd)
      else member fuel frame outer
where
  /-- The next member of a container: a key and colon first inside an object. -/
  member (fuel : Nat) (frame : UInt8) (outer : List UInt8) : Reader Unit := do
    if frame = 0x7B then
      match ← skipWhitespace with
      | some 0x22 => advance
      | some _ => failAhead .keyMustBeAString
      | none => failAhead .eofWhileParsingObject
      skipString (← input).size
      match ← skipWhitespace with
      | some 0x3A => advance
      | some _ => failAhead .expectedColon
      | none => failAhead .eofWhileParsingObject
    skipLoop fuel (.value (frame :: outer))

/-- Skips one value. -/
def skipValue : Reader Unit := do skipLoop (2 * (← input).size + 2) (.value [])

/-- Whether an array has another element, consuming the comma before it. -/
def hasNextElement (first : Bool) : Reader Bool := do
  let peeked ← match ← skipWhitespace with
    | some 0x5D => return false
    | some 0x2C => if first then pure (some 0x2C) else do advance; skipWhitespace
    | some b => if first then pure (some b) else failAhead .expectedListCommaOrEnd
    | none => failAhead .eofWhileParsingList
  match peeked with
  | some 0x5D => failAhead .trailingComma
  | some _ => pure true
  | none => failAhead .eofWhileParsingValue

/-- The next key of an object, consuming the comma before it, or none at its end. -/
def nextKey (first : Bool) : Reader (Option String) := do
  let peeked ← match ← skipWhitespace with
    | some 0x7D => return none
    | some 0x2C => if first then pure (some 0x2C) else do advance; skipWhitespace
    | some b => if first then pure (some b) else failAhead .expectedObjectCommaOrEnd
    | none => failAhead .eofWhileParsingObject
  match peeked with
  | some 0x22 => do advance; some <$> parseString
  | some 0x7D => failAhead .trailingComma
  | some _ => failAhead .keyMustBeAString
  | none => failAhead .eofWhileParsingValue

/-- The colon between a key and its value. -/
def objectColon : Reader Unit := do
  match ← skipWhitespace with
  | some 0x3A => advance
  | some _ => failAhead .expectedColon
  | none => failAhead .eofWhileParsingObject

/-- The end of an array. -/
def endSeq : Reader Unit := do
  match ← skipWhitespace with
  | some 0x5D => advance
  | some 0x2C => do
    advance
    match ← skipWhitespace with
    | some 0x5D => failAhead .trailingComma
    | _ => failAhead .trailingCharacters
  | some _ => failAhead .trailingCharacters
  | none => failAhead .eofWhileParsingList

/-- The end of an object. -/
def endMap : Reader Unit := do
  match ← skipWhitespace with
  | some 0x7D => advance
  | some 0x2C => failAhead .trailingComma
  | some _ => failAhead .trailingCharacters
  | none => failAhead .eofWhileParsingObject

/-- Fails with a type mismatch for the value ahead, reading it far enough to name it. -/
def invalidType {α : Type} (expected : String) : Reader α := do
  let b ← peekOrNull
  let found ←
    if b = 0x6E then do advance; expectIdent [0x75, 0x6C, 0x6C]; pure Unexpected.null
    else if b = 0x74 then do advance; expectIdent [0x72, 0x75, 0x65]; pure (Unexpected.bool true)
    else if b = 0x66 then do
      advance; expectIdent [0x61, 0x6C, 0x73, 0x65]; pure (Unexpected.bool false)
    else if b = 0x2D then do advance; ParsedNumber.unexpected <$> parseInteger false
    else if isDigit b then ParsedNumber.unexpected <$> parseInteger true
    else if b = 0x22 then do advance; Unexpected.string <$> parseString
    else if b = 0x5B then pure Unexpected.sequence
    else if b = 0x7B then pure Unexpected.map
    else failAhead .expectedSomeValue
  throw (← place ⟨.invalidType found expected, none⟩)

/-- The end of the input, after optional blanks. -/
def endOfInput : Reader Unit := do
  match ← skipWhitespace with
  | some _ => failAhead .trailingCharacters
  | none => pure ()

mutual

/-- Any value, with `depth` more arrays or objects allowed to open around it. -/
def parseValue : Nat → Nat → Reader JsonValue
  | 0, _ => fail .recursionLimitExceeded
  | fuel + 1, depth => placed do
    match ← skipWhitespace with
    | none => failAhead .eofWhileParsingValue
    | some b =>
      if b = 0x6E then do advance; expectIdent [0x75, 0x6C, 0x6C]; pure .null
      else if b = 0x74 then do advance; expectIdent [0x72, 0x75, 0x65]; pure (.bool true)
      else if b = 0x66 then do advance; expectIdent [0x61, 0x6C, 0x73, 0x65]; pure (.bool false)
      else if b = 0x2D then do advance; (.number ∘ ParsedNumber.toJson) <$> parseInteger false
      else if isDigit b then (.number ∘ ParsedNumber.toJson) <$> parseInteger true
      else if b = 0x22 then do advance; .string <$> parseString
      else if b = 0x5B then
        if depth ≤ 1 then failAhead .recursionLimitExceeded
        else do
          advance
          let items ← attempt (parseItems fuel (depth - 1) true [])
          let closing ← attempt endSeq
          .array <$> finish items closing
      else if b = 0x7B then
        if depth ≤ 1 then failAhead .recursionLimitExceeded
        else do
          advance
          let members ← attempt (parseMembers fuel (depth - 1) true [])
          let closing ← attempt endMap
          .object <$> finish members closing
      else failAhead .expectedSomeValue

/-- The elements of an array after its opening bracket. -/
def parseItems : Nat → Nat → Bool → List JsonValue → Reader (List JsonValue)
  | 0, _, _, _ => fail .recursionLimitExceeded
  | fuel + 1, depth, first, acc => do
    if ← hasNextElement first then
      let v ← parseValue fuel depth
      parseItems fuel depth false (v :: acc)
    else pure acc.reverse

/-- The members of an object after its opening brace, sorted by name. -/
def parseMembers : Nat → Nat → Bool → List (String × JsonValue) →
    Reader (List (String × JsonValue))
  | 0, _, _, _ => fail .recursionLimitExceeded
  | fuel + 1, depth, first, acc => do
    match ← nextKey first with
    | none => pure acc
    | some k => do
      objectColon
      let v ← parseValue fuel depth
      parseMembers fuel depth false (JsonValue.insertSorted k v acc)

end

/-- Runs a reading over a whole input, which must hold nothing after the value but blanks. -/
def runDocument {α : Type} (r : Reader α) (bytes : List UInt8) : Except ReadError α :=
  let inp := bytes.toArray
  (((do let v ← r; endOfInput; pure v : Reader α).run inp).run.run 0).1

end Reader

/-- How many arrays and objects may be open at once while reading a document: the 128th to open
is refused. -/
def nestingLimit : Nat := 128

/-- Reads one JSON document. -/
def parseValue (bytes : List UInt8) : Except ReadError JsonValue :=
  Reader.runDocument (do Reader.parseValue (2 * (← Reader.input).size + 2) nestingLimit) bytes

end Chaincode.Json
