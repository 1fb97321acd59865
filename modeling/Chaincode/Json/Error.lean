import Chaincode.Number.Shortest
import Chaincode.Text.Quoted

/-!
# JSON reading failures

A failure of reading JSON is either a syntax error, found at a byte of the input, or a
mismatch between the input and the expected type (a missing or repeated field, an unknown
variant, a value of the wrong kind or length). A syntax error carries its position from the
start; a mismatch gets the position of the point where the reading of the enclosing value ended.
A mismatch found while reading a tree that was parsed before carries no position at all.

A position is a line, counted from one, and a column: the number of bytes since the line began.
-/

namespace Chaincode.Json

/-- What a value turned out to be, for a message about a mismatch. -/
inductive Unexpected where
  | bool (b : Bool)
  | unsigned (n : Nat)
  | signed (n : Int)
  | float (x : Float)
  | string (s : String)
  | null
  | sequence
  | map

/-- How a mismatch names what was found. -/
def Unexpected.describe : Unexpected → String
  | .bool b => "boolean `" ++ (if b then "true" else "false") ++ "`"
  | .unsigned n => "integer `" ++ toString n ++ "`"
  | .signed n => "integer `" ++ toString n ++ "`"
  | .float x => "floating point `" ++ Number.DoubleFormat.messages.show x ++ "`"
  | .string s => "string " ++ Text.quote s
  | .null => "null"
  | .sequence => "sequence"
  | .map => "map"

/-- Why JSON could not be read. -/
inductive ReadErrorCode where
  | eofWhileParsingList
  | eofWhileParsingObject
  | eofWhileParsingString
  | eofWhileParsingValue
  | expectedColon
  | expectedListCommaOrEnd
  | expectedObjectCommaOrEnd
  | expectedSomeIdent
  | expectedSomeValue
  | invalidEscape
  | invalidNumber
  | numberOutOfRange
  | invalidUnicodeCodePoint
  | controlCharacterWhileParsingString
  | keyMustBeAString
  | loneLeadingSurrogateInHexEscape
  | trailingComma
  | trailingCharacters
  | unexpectedEndOfHexEscape
  | recursionLimitExceeded
  /-- A value of the wrong kind for what was expected. -/
  | invalidType (found : Unexpected) (expected : String)
  /-- A value of the right kind outside the expected range. -/
  | invalidValue (found : Unexpected) (expected : String)
  /-- A sequence of the wrong length. -/
  | invalidLength (length : Nat) (expected : String)
  | missingField (name : String)
  | duplicateField (name : String)
  | unknownVariant (name : String) (expected : List String)
  /-- A failure described by the reader of a field, such as a timestamp. -/
  | custom (message : String)

/-- The names of the variants a value may take: one, two joined by `or`, or `one of` a list. -/
def oneOf : List String → String
  | [] => "nothing"
  | [a] => "`" ++ a ++ "`"
  | [a, b] => "`" ++ a ++ "` or `" ++ b ++ "`"
  | names => "one of " ++ ", ".intercalate (names.map fun n => "`" ++ n ++ "`")

/-- The wording of each failure, without its position. -/
def ReadErrorCode.message : ReadErrorCode → String
  | .eofWhileParsingList => "EOF while parsing a list"
  | .eofWhileParsingObject => "EOF while parsing an object"
  | .eofWhileParsingString => "EOF while parsing a string"
  | .eofWhileParsingValue => "EOF while parsing a value"
  | .expectedColon => "expected `:`"
  | .expectedListCommaOrEnd => "expected `,` or `]`"
  | .expectedObjectCommaOrEnd => "expected `,` or `\x7d`"
  | .expectedSomeIdent => "expected ident"
  | .expectedSomeValue => "expected value"
  | .invalidEscape => "invalid escape"
  | .invalidNumber => "invalid number"
  | .numberOutOfRange => "number out of range"
  | .invalidUnicodeCodePoint => "invalid unicode code point"
  | .controlCharacterWhileParsingString =>
    "control character (\\u0000-\\u001F) found while parsing a string"
  | .keyMustBeAString => "key must be a string"
  | .loneLeadingSurrogateInHexEscape => "lone leading surrogate in hex escape"
  | .trailingComma => "trailing comma"
  | .trailingCharacters => "trailing characters"
  | .unexpectedEndOfHexEscape => "unexpected end of hex escape"
  | .recursionLimitExceeded => "recursion limit exceeded"
  | .invalidType found expected => "invalid type: " ++ found.describe ++ ", expected " ++ expected
  | .invalidValue found expected =>
    "invalid value: " ++ found.describe ++ ", expected " ++ expected
  | .invalidLength n expected => "invalid length " ++ toString n ++ ", expected " ++ expected
  | .missingField name => "missing field `" ++ name ++ "`"
  | .duplicateField name => "duplicate field `" ++ name ++ "`"
  | .unknownVariant name [] => "unknown variant `" ++ name ++ "`, there are no variants"
  | .unknownVariant name expected => "unknown variant `" ++ name ++ "`, expected " ++ oneOf expected
  | .custom message => message

/-- A failure with its position, when it has one. -/
structure ReadError where
  code : ReadErrorCode
  /-- Line and column. -/
  position : Option (Nat × Nat)

/-- The full wording: the failure, then its line and column when known. -/
def ReadError.message (e : ReadError) : String :=
  match e.position with
  | some (line, column) =>
    e.code.message ++ " at line " ++ toString line ++ " column " ++ toString column
  | none => e.code.message

end Chaincode.Json
