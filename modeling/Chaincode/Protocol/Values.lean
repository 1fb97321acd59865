import Chaincode.Protocol.Wire
import Chaincode.Codec.Plain
import Chaincode.Paper.Types

/-!
# Plain values in requests and answers

A plain type is named by its short name (`bool`, `i32`, `string`, `bytes`, `unit`, ...), an
option by `opt_` before the name of what it holds; requests can name fifteen of them. A plain value is written as a boolean, an
integer as a decimal string, text as a string, bytes in their wire form, the unit value as
`null`, and an option as `null` or `{"some": value}`.

The `decode` request reads bytes as a plain type and answers the value and its encoding again;
for the structured types it answers the encoding of what was read. The `encode` request encodes
a written value and reads the bytes back.
-/

namespace Chaincode.Protocol

open Json

/-- The name of a plain type. -/
def plainName : Plain → String
  | .bool => "bool"
  | .i32 => "i32"
  | .i64 => "i64"
  | .u32 => "u32"
  | .u64 => "u64"
  | .text => "string"
  | .bytes => "bytes"
  | .unit => "unit"
  | .option t => "opt_" ++ plainName t

/-- The plain types requests can name: the eight base types, six options of them, and one
option of an option. -/
def plainTypes : List (String × Plain) :=
  [("bool", .bool), ("i32", .i32), ("i64", .i64), ("u32", .u32), ("u64", .u64),
   ("string", .text), ("bytes", .bytes), ("unit", .unit),
   ("opt_string", .option .text), ("opt_u64", .option .u64), ("opt_i32", .option .i32),
   ("opt_bool", .option .bool), ("opt_unit", .option .unit), ("opt_bytes", .option .bytes),
   ("opt_opt_u32", .option (.option .u32))]

/-- The plain type a request names. -/
def plainOf (name : String) : Decode Plain :=
  match plainTypes.lookup name with
  | some t => pure t
  | none => refuse ("unknown type " ++ quoted name)

/-- The written form of a plain value. -/
def renderPlain : (t : Plain) → t.Val → JsonValue
  | .bool, b => .bool b
  | .i32, n => .string (toString n.toInt)
  | .i64, n => .string (toString n.toInt)
  | .u32, n => .string (toString n.toNat)
  | .u64, n => .string (toString n.toNat)
  | .text, s => .string s
  | .bytes, b => bytesJson b
  | .unit, _ => .null
  | .option _, none => .null
  | .option t, some v => .object [("some", renderPlain t v)]

/-- The form of a bound argument's value: as written, except that an option is `null` or the
value it holds. -/
def boundPlain : (t : Plain) → t.Val → JsonValue
  | .option _, none => .null
  | .option t, some v => boundPlain t v
  | t, v => renderPlain t v

/-- A decimal string in `[lo, hi]`; a failed reading answers the reader's message. -/
def decimalOf (lo hi : Int) (v : JsonValue) : Decode Int :=
  match v with
  | .string s =>
    match integerOf lo hi s with
    | .ok n => pure n
    | .error e => refuse e.message
  | _ => refuse "integer values are decimal strings"

/-- A plain value from its written form; an option is `null` or an object with a `some` member,
other members ignored. -/
def parsePlain : (t : Plain) → JsonValue → Decode t.Val
  | .bool, .bool b => pure b
  | .bool, _ => refuse "expected a boolean"
  | .i32, v => do return (← decimalOf (-2147483648) 2147483647 v).toInt32
  | .i64, v => do return (← decimalOf (-9223372036854775808) 9223372036854775807 v).toInt64
  | .u32, v => do return (← decimalOf 0 4294967295 v).toNat.toUInt32
  | .u64, v => do return (← decimalOf 0 18446744073709551615 v).toNat.toUInt64
  | .text, .string s => pure s
  | .text, _ => refuse "expected a string"
  | .bytes, v => bytesOfJson v
  | .unit, _ => pure ()
  | .option _, .null => pure none
  | .option t, .object members =>
    match members.lookup "some" with
    | some v => do return some (← parsePlain t v)
    | none => refuse "options are null or \x7b\"some\": value\x7d"
  | .option _, _ => refuse "options are null or \x7b\"some\": value\x7d"

/-- A codec failure as an answer. -/
def codecFailure (e : CodecError) : JsonValue :=
  match e with
  | .encode _ _ => failure "Encode" e.message
  | .decode _ _ => failure "Decode" e.message

/-- Reads bytes as a plain type: the value and its encoding again. -/
def decodePlain (t : Plain) (b : Bytes) : JsonValue :=
  match t.codec.decode b with
  | .ok v => .object [("value", renderPlain t v), ("reencoded", bytesJson (t.codec.encode v))]
  | .error e => codecFailure e

/-- Encodes a written plain value: the bytes, and what they read back as. -/
def encodePlain (t : Plain) (v : JsonValue) : Decode JsonValue := do
  let x ← parsePlain t v
  let b := t.codec.encode x
  let decoded := match t.codec.decode b with
    | .ok y => .object [("value", renderPlain t y)]
    | .error e => codecFailure e
  return .object [("bytes", bytesJson b), ("decoded", decoded)]

/-- The structured types the `decode` request knows, with their full names and JSON forms. -/
def structuredTypes : List (String × String × Shape) :=
  [("commercial_paper", "cc_tests::paper::CommercialPaper", Paper.paperShape),
   ("paper_issued", "cc_tests::paper::PaperIssued", Paper.issuedShape),
   ("paper_bought", "cc_tests::paper::PaperBought", Paper.boughtShape),
   ("paper_redeemed", "cc_tests::paper::PaperRedeemed", Paper.redeemedShape),
   ("paper_list",
    "cc_01_state_mapping::domain::entity::EntityList<cc_tests::paper::CommercialPaper>",
    Paper.paperListShape),
   ("string_list", "cc_01_state_mapping::domain::entity::EntityList<alloc::string::String>",
    .record "EntityList" [("items", .sequence .text)])]

/-- Reads bytes as a structured type: the encoding of what was read. -/
def decodeStructured (typeName : String) (shape : Shape) (b : Bytes) : JsonValue :=
  match shape.parse b with
  | .ok d => .object [("reencoded", bytesJson (Bytes.ofString d.toJson.render))]
  | .error e => failure "Decode" (CodecError.decode typeName e.message).message

/-- Answers a `decode` request: the bytes are read before the type is resolved. -/
def answerDecode (req : JsonValue) : Decode JsonValue := do
  let b ← bytesOfJson (member req "bytes")
  let name := textOr req "type"
  match structuredTypes.lookup name with
  | some (typeName, shape) => return decodeStructured typeName shape b
  | none => return decodePlain (← plainOf name) b

/-- Answers an `encode` request. -/
def answerEncode (req : JsonValue) : Decode JsonValue := do
  encodePlain (← plainOf (textOr req "type")) (member req "value")

end Chaincode.Protocol
