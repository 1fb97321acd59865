import Chaincode.Json.Reader
import Chaincode.Time.Parse

/-!
# Typed JSON

A `Shape` describes the JSON form of a typed value: text, a natural below 2^64, an instant
written as RFC 3339 text, an optional value (`null` for none), one of a fixed list of names, a
record with named fields, a sequence, or a map from text to text. A `Datum` is a value of some
shape.

`Shape.read` reads a datum of a shape from the reader; it fails as a typed reading does:

* a value of another type is named and refused ("invalid type: integer `1`, expected a string"),
  at the offset after that value;
* a record is an object, whose unknown keys are skipped, whose duplicated keys are refused and
  whose missing fields are refused unless optional; or an array of its fields in order, where too
  few elements are refused by their count;
* the closing bracket or brace of a container is looked for even after its contents failed, and
  a mismatch found inside is reported at the offset where that closing stopped.

`Datum.toJson` writes a datum back: record fields in their declared order, map entries sorted.
-/

namespace Chaincode.Json

/-- The JSON form of a typed value. -/
inductive Shape where
  /-- A string. -/
  | text
  /-- A natural number below 2^64. -/
  | nat64
  /-- An instant, as an RFC 3339 string. -/
  | instant
  /-- `null`, or a value of the inner shape. -/
  | optional (inner : Shape)
  /-- One of the given names, written as a string. -/
  | variants (names : List String)
  /-- An object with the given fields, or an array of them in order. -/
  | record (name : String) (fields : List (String × Shape))
  /-- An array of values of one shape. -/
  | sequence (item : Shape)
  /-- An object whose values are strings. -/
  | textMap

/-- A value of some shape. -/
inductive Datum where
  | text (s : String)
  | nat (n : Nat)
  | instant (t : Timestamp)
  | none
  | some (d : Datum)
  | variant (name : String)
  | record (fields : List (String × Datum))
  | sequence (items : List Datum)
  | textMap (entries : List (String × String))
  deriving Inhabited

namespace Datum

mutual

/-- The JSON form of a datum. -/
def toJson : Datum → JsonValue
  | .text s => .string s
  | .nat n => .number (.nat n)
  | .instant t => .string t.render
  | .none => .null
  | .some d => d.toJson
  | .variant name => .string name
  | .record fields => .object (fieldsToJson fields)
  | .sequence items => .array (itemsToJson items)
  | .textMap entries => .object (entries.map fun (k, v) => (k, .string v))

/-- The JSON forms of record fields, in order. -/
def fieldsToJson : List (String × Datum) → List (String × JsonValue)
  | [] => []
  | (k, d) :: rest => (k, d.toJson) :: fieldsToJson rest

/-- The JSON forms of sequence items, in order. -/
def itemsToJson : List Datum → List JsonValue
  | [] => []
  | d :: rest => d.toJson :: itemsToJson rest

end

/-- A field of a record datum. -/
def field? (d : Datum) (name : String) : Option Datum :=
  match d with
  | .record fields => fields.lookup name
  | _ => Option.none

/-- The text of a text datum. -/
def asText : Datum → String
  | .text s => s
  | _ => ""

end Datum

/-- A map from text to text, kept sorted by key; a later entry replaces an earlier one. -/
def insertEntry (k v : String) : List (String × String) → List (String × String)
  | [] => [(k, v)]
  | (k', v') :: rest =>
    if k = k' then (k, v) :: rest
    else if k < k' then (k, v) :: (k', v') :: rest
    else (k', v') :: insertEntry k v rest

/-- What a mismatch message expects of a record read as an array of its fields. -/
def recordLength (name : String) (n : Nat) : String :=
  "struct " ++ name ++ " with " ++ toString n ++ (if n = 1 then " element" else " elements")

namespace Reader

/-- A string. -/
def readText : Reader String := placed do
  match ← skipWhitespace with
  | none => failAhead .eofWhileParsingValue
  | some 0x22 => do advance; parseString
  | some _ => invalidType "a string"

/-- A natural number below 2^64. -/
def readNat64 : Reader Nat := placed do
  let number ← match ← skipWhitespace with
    | none => failAhead .eofWhileParsingValue
    | some 0x2D => do advance; parseInteger false
    | some b => if isDigit b then parseInteger true else invalidType "u64"
  match number with
  | .unsigned n => pure n
  | .signed n => mismatch (.invalidValue (.signed n) "u64")
  | .float x => mismatch (.invalidType (.float x) "u64")

/-- An instant written as RFC 3339 text. -/
def readInstant : Reader Timestamp := placed do
  match ← skipWhitespace with
  | none => failAhead .eofWhileParsingValue
  | some 0x22 => do
    advance
    match Timestamp.parse (← parseString) with
    | .ok t => pure t
    | .error e => mismatch (.custom e.message)
  | some _ => invalidType "an RFC 3339 formatted date and time string"

/-- A name out of a fixed list, as a string. -/
def readVariantName (names : List String) : Reader String := placed do
  match ← skipWhitespace with
  | none => failAhead .eofWhileParsingValue
  | some 0x22 => do
    advance
    let name ← parseString
    if names.contains name then pure name else mismatch (.unknownVariant name names)
  | some _ => invalidType "variant identifier"

/-- `null`, which is what a variant without contents holds. -/
def readUnit : Reader Unit := placed do
  match ← skipWhitespace with
  | none => failAhead .eofWhileParsingValue
  | some 0x6E => do advance; expectIdent [0x75, 0x6C, 0x6C]
  | some _ => invalidType "unit"

/-- One of a fixed list of names: a string, or an object of one member whose value is `null`. -/
def readVariant (names : List String) : Reader String := do
  match ← skipWhitespace with
  | some 0x7B => do
    advance
    let name ← readVariantName names
    objectColon
    readUnit
    match ← skipWhitespace with
    | some 0x7D => do advance; pure name
    | some _ => fail .expectedSomeValue
    | none => fail .eofWhileParsingObject
  | some 0x22 => readVariantName names
  | some _ => failAhead .expectedSomeValue
  | none => failAhead .eofWhileParsingValue

/-- A map from text to text after its opening brace. -/
def textEntries : Nat → Bool → List (String × String) → Reader (List (String × String))
  | 0, _, _ => fail .recursionLimitExceeded
  | fuel + 1, first, acc => do
    match ← nextKey first with
    | none => pure acc
    | some k => do
      objectColon
      let v ← readText
      textEntries fuel false (insertEntry k v acc)

/-- A map from text to text. -/
def readTextMap : Reader (List (String × String)) := placed do
  match ← skipWhitespace with
  | none => failAhead .eofWhileParsingValue
  | some 0x7B => do
    advance
    let entries ← attempt (textEntries (← input).size true [])
    let closing ← attempt endMap
    finish entries closing
  | some _ => invalidType "a map"

/-- The fields of a record read from an object: each slot filled once, in field order;
a missing field is none when optional and refused otherwise. -/
def completeFields : List (String × Shape) → List (Option Datum) → Reader (List (String × Datum))
  | [], _ => pure []
  | (name, shape) :: rest, slot :: slots => do
    let d ← match slot, shape with
      | some d, _ => pure d
      | none, .optional _ => pure Datum.none
      | none, _ => mismatch (.missingField name)
    return (name, d) :: (← completeFields rest slots)
  | (name, _) :: _, [] => mismatch (.missingField name)

mutual

/-- A datum of a shape. -/
def read : Nat → Shape → Reader Datum
  | 0, _ => fail .recursionLimitExceeded
  | _ + 1, .text => Datum.text <$> readText
  | _ + 1, .nat64 => Datum.nat <$> readNat64
  | _ + 1, .instant => Datum.instant <$> readInstant
  | fuel + 1, .optional inner => do
    match ← skipWhitespace with
    | some 0x6E => do advance; expectIdent [0x75, 0x6C, 0x6C]; pure .none
    | _ => Datum.some <$> read fuel inner
  | _ + 1, .variants names => Datum.variant <$> readVariant names
  | fuel + 1, .record name fields => placed do
    match ← skipWhitespace with
    | none => failAhead .eofWhileParsingValue
    | some 0x5B => do
      advance
      let r ← attempt (recordItems fuel name fields.length true fields)
      let closing ← attempt endSeq
      Datum.record <$> finish r closing
    | some 0x7B => do
      advance
      let r ← attempt (recordMembers fuel fields true (fields.map fun _ => Option.none))
      let closing ← attempt endMap
      Datum.record <$> finish r closing
    | some _ => invalidType ("struct " ++ name)
  | fuel + 1, .sequence item => placed do
    match ← skipWhitespace with
    | none => failAhead .eofWhileParsingValue
    | some 0x5B => do
      advance
      let r ← attempt (sequenceItems fuel item true [])
      let closing ← attempt endSeq
      Datum.sequence <$> finish r closing
    | some _ => invalidType "a sequence"
  | _ + 1, .textMap => Datum.textMap <$> readTextMap

/-- The fields of a record read from an array, in order. -/
def recordItems : Nat → String → Nat → Bool → List (String × Shape) →
    Reader (List (String × Datum))
  | 0, _, _, _, _ => fail .recursionLimitExceeded
  | _ + 1, _, _, _, [] => pure []
  | fuel + 1, name, total, first, (field, shape) :: rest => do
    if ← hasNextElement first then
      let d ← read fuel shape
      return (field, d) :: (← recordItems fuel name total false rest)
    else mismatch (.invalidLength (total - rest.length - 1) (recordLength name total))

/-- The fields of a record read from an object after its opening brace. -/
def recordMembers : Nat → List (String × Shape) → Bool → List (Option Datum) →
    Reader (List (String × Datum))
  | 0, _, _, _ => fail .recursionLimitExceeded
  | fuel + 1, fields, first, slots => do
    match ← nextKey first with
    | none => completeFields fields slots
    | some k =>
      match fields.findIdx? (·.1 = k) with
      | some i =>
        if (slots.getD i Option.none).isSome then mismatch (.duplicateField k)
        else do
          objectColon
          let d ← read fuel ((fields.getD i ("", .text)).2)
          recordMembers fuel fields false (slots.set i (some d))
      | none => do
        objectColon
        skipValue
        recordMembers fuel fields false slots

/-- The items of a sequence after its opening bracket. -/
def sequenceItems : Nat → Shape → Bool → List Datum → Reader (List Datum)
  | 0, _, _, _ => fail .recursionLimitExceeded
  | fuel + 1, item, first, acc => do
    if ← hasNextElement first then
      let d ← read fuel item
      sequenceItems fuel item false (d :: acc)
    else pure acc.reverse

end

end Reader

/-- Reads one JSON document of a shape. -/
def Shape.parse (shape : Shape) (bytes : List UInt8) : Except ReadError Datum :=
  Reader.runDocument (do Reader.read (2 * (← Reader.input).size + 16) shape) bytes

end Chaincode.Json
