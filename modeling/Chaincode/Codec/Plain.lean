import Chaincode.Codec.Basic
import Chaincode.Text.Utf8
import Chaincode.Text.Blank
import Chaincode.Number.Decimal

/-!
# Plain codecs

The byte forms of the plain types: booleans and integers are their decimal text (read back after
trimming blanks), text is its UTF-8 encoding, raw bytes are themselves, the unit value is the
empty string, and an optional value is empty for nothing and otherwise the encoding of what it
holds. Because the empty string stands for nothing, something whose own encoding is empty reads
back as nothing.

`Plain` names these types, so that statements can range over all of them, options nested to any
depth included.
-/

namespace Chaincode

open Text

/-- Reads UTF-8 text, naming `typeName` when the bytes are not UTF-8. -/
def readText (typeName : String) (b : Bytes) : Except CodecError String :=
  match Utf8.decode b with
  | .ok s => .ok s
  | .error e => .error (.decode typeName e.message)

/-- A codec whose encoding is a text: decoding reads UTF-8, trims blanks and parses. -/
def textualCodec {α : Type} (typeName : String) (render : α → String)
    (parse : String → Except String α) : Codec α where
  typeName := typeName
  encode v := Bytes.ofString (render v)
  decode b := do
    let s ← readText typeName b
    match parse (trimBlank s) with
    | .ok v => .ok v
    | .error reason => .error (.decode typeName reason)

/-- Parses a decimal text into the range `[lo, hi]`, reporting the failure's wording. -/
def parseRange (lo hi : Int) (s : String) : Except String Int :=
  match Number.parseInt lo hi s with
  | .ok n => .ok n
  | .error e => .error e.message

namespace Codec

/-- Booleans as `true` and `false`. -/
def bool : Codec Bool :=
  textualCodec "bool" (fun b => if b then "true" else "false") fun s =>
    match Number.parseBool s with
    | .ok b => .ok b
    | .error _ => .error Number.boolErrorMessage

/-- 32-bit signed integers as decimal text. -/
def int32 : Codec Int32 :=
  textualCodec "i32" (fun n => toString n.toInt) fun s =>
    (parseRange (-2147483648) 2147483647 s).map Int.toInt32

/-- 64-bit signed integers as decimal text. -/
def int64 : Codec Int64 :=
  textualCodec "i64" (fun n => toString n.toInt) fun s =>
    (parseRange (-9223372036854775808) 9223372036854775807 s).map Int.toInt64

/-- 32-bit unsigned integers as decimal text. -/
def uint32 : Codec UInt32 :=
  textualCodec "u32" (fun n => toString n.toNat) fun s =>
    (parseRange 0 4294967295 s).map fun n => n.toNat.toUInt32

/-- 64-bit unsigned integers as decimal text. -/
def uint64 : Codec UInt64 :=
  textualCodec "u64" (fun n => toString n.toNat) fun s =>
    (parseRange 0 18446744073709551615 s).map fun n => n.toNat.toUInt64

/-- Text as UTF-8. -/
def text : Codec String where
  typeName := "alloc::string::String"
  encode := Bytes.ofString
  decode := readText "alloc::string::String"

/-- Raw bytes as themselves. -/
def bytes : Codec Bytes where
  typeName := "alloc::vec::Vec<u8>"
  encode b := b
  decode b := .ok b

/-- The unit value as the empty string; every byte string reads as the unit value. -/
def unit : Codec Unit where
  typeName := "()"
  encode _ := []
  decode _ := .ok ()

/-- An optional value: nothing is the empty string, something is the encoding of what it holds.
The empty string always reads as nothing; failures of the inner type name the inner type. -/
def option {α : Type} (inner : Codec α) : Codec (Option α) where
  typeName := "core::option::Option<" ++ inner.typeName ++ ">"
  encode
    | none => []
    | some v => inner.encode v
  decode b := if b.isEmpty then .ok none else (inner.decode b).map some

end Codec

/-- The plain types: booleans, the four integer widths, text, raw bytes, unit, and options of
plain types. -/
inductive Plain where
  | bool
  | i32
  | i64
  | u32
  | u64
  | text
  | bytes
  | unit
  | option (inner : Plain)
  deriving DecidableEq, Repr

namespace Plain

/-- The Lean type a plain type stands for. -/
@[reducible] def Val : Plain → Type
  | .bool => Bool
  | .i32 => Int32
  | .i64 => Int64
  | .u32 => UInt32
  | .u64 => UInt64
  | .text => String
  | .bytes => Bytes
  | .unit => Unit
  | .option t => Option t.Val

/-- The codec of a plain type. -/
def codec : (t : Plain) → Codec t.Val
  | .bool => Codec.bool
  | .i32 => Codec.int32
  | .i64 => Codec.int64
  | .u32 => Codec.uint32
  | .u64 => Codec.uint64
  | .text => Codec.text
  | .bytes => Codec.bytes
  | .unit => Codec.unit
  | .option t => Codec.option t.codec

end Plain

end Chaincode
