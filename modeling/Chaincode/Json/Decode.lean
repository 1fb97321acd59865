import Chaincode.Json.Value
import Chaincode.Json.Error

/-!
# Typed values from JSON trees

Reading typed values out of a JSON tree that was parsed before. A mismatch names what was found
and what was expected, and carries no position, since the tree no longer knows where its parts
stood in the text.
-/

namespace Chaincode.Json

/-- What a JSON value is, for a mismatch message. -/
def unexpectedOf : JsonValue → Unexpected
  | .null => .null
  | .bool b => .bool b
  | .number (.nat n) => .unsigned n
  | .number (.negative n) => .signed n
  | .number (.float x) => .float x
  | .string s => .string s
  | .array _ => .sequence
  | .object _ => .map

/-- A mismatch between a value and what was expected of it. -/
def mismatch (v : JsonValue) (expected : String) : ReadErrorCode := .invalidType (unexpectedOf v) expected

/-- A string value. -/
def decodeString (v : JsonValue) : Except ReadErrorCode String :=
  match v with
  | .string s => .ok s
  | _ => .error (mismatch v "a string")

/-- A boolean value. -/
def decodeBool (v : JsonValue) : Except ReadErrorCode Bool :=
  match v with
  | .bool b => .ok b
  | _ => .error (mismatch v "a boolean")

end Chaincode.Json
