import Chaincode.Protocol.Wire
import Chaincode.Codec.Json
import Chaincode.Codec.Plain
import Chaincode.Registry
import Chaincode.Event

/-!
# Entity and event types of requests

The entity and event types that requests name, with the full type names their codecs report.

* The entity types `Alpha`, `Beta` and `Gamma` all hold records: maps from field names to texts,
  stored as JSON objects with their fields sorted. A record with a field `_invalid` breaks the
  domain rule, with that field's value as explanation; the empty record stands in for a missing
  one.
* The event payload types are the records `EvA` and `EvB`, text, 64-bit naturals, raw bytes and
  the unit value.
* A mapping is requested by entity type, optional namespace, key fields and unique keys; its key
  functions take the record's values of the listed fields in order, skipping fields the record
  does not have.
-/

namespace Chaincode.Protocol

open Json

/-- A record: field names with texts, sorted by name. -/
abbrev Record := List (String × String)

/-- How records of a type are stored. -/
def recordCodec (typeName : String) : Codec Record :=
  Codec.json typeName .textMap .textMap fun
    | .textMap entries => entries
    | _ => []

/-- A record breaks the rule when it has a field `_invalid`. -/
def validateRecord (r : Record) : Except ValidationError Unit :=
  match r.lookup "_invalid" with
  | some reason => .error ⟨reason⟩
  | none => .ok ()

/-- The record entity type of a full type name. -/
def recordKind (typeName : String) : EntityKind Record := ⟨recordCodec typeName, validateRecord, []⟩

/-- The entity type a request names. -/
def entityKindOf (name : String) : Decode (EntityKind Record) :=
  if name = "Alpha" ∨ name = "Beta" ∨ name = "Gamma" then pure (recordKind ("driver::" ++ name))
  else refuse ("unknown entity type " ++ quoted name)

/-- The entity type named by a request's required `type` member. -/
def entityTypeOf (v : JsonValue) : Decode (EntityKind Record) := do
  entityKindOf (← textOf v "type")

/-- A record in a request: an object of strings; `label` names the record when it is not an
object. -/
def recordOfJson (label : String) (v : JsonValue) : Decode Record :=
  match v with
  | .object members => members.mapM fun
    | (k, .string s) => pure (k, s)
    | (k, _) => refuse ("entity field " ++ quoted k ++ " must be a string")
  | _ => refuse ("missing object field " ++ quoted label)

/-- A record as a JSON object. -/
def recordJson (r : Record) : JsonValue := .object (r.map fun (k, s) => (k, .string s))

/-- The key of a record's values for some fields, in order, missing fields skipped. -/
def fieldsKey (fields : List String) (r : Record) : Key := ⟨fields.filterMap fun f => r.lookup f⟩

/-- The fields an extractor reads: the `extract` member when there is one (even `null`), else
the given fields. -/
def extractOf (v : JsonValue) (fields : List String) : Decode (List String) :=
  match v.field? "extract" with
  | some w => namesOf "extract" w
  | none => pure fields

/-- A list of names that may be left out: none when absent. -/
def optNamesOf (v : JsonValue) (name : String) : Decode (List String) :=
  match v.field? name with
  | some w => namesOf name w
  | none => pure []

/-- A unique key of a mapping request: its name is required and read first. -/
def uniqueKeyOf (v : JsonValue) : Decode (String × List String × List String) := do
  let name ← textOf v "name"
  let fields ← optNamesOf v "fields"
  let extract ← extractOf v fields
  return (name, fields, extract)

/-- The mapping a request describes; a missing type names no entity type. -/
def mappingOf (v : JsonValue) : Decode (Mapping Record) := do
  let kind ← entityKindOf (textOr v "type")
  let keyFields ← optNamesOf v "key_fields"
  let extract ← extractOf v keyFields
  let base ← match member v "namespace" with
    | .null => pure (Mapping.forType kind keyFields (fieldsKey extract))
    | .string ns => pure (Mapping.new kind ns keyFields (fieldsKey extract))
    | w => refuse ("namespace must be a string, got " ++ w.render)
  let uniques ← (itemsOf v "unique").mapM uniqueKeyOf
  return uniques.foldl (fun m (name, fields, ex) => m.withUniqueKey name fields (fieldsKey ex)) base

/-- Registering mappings in order: the registry, or the failure and the position of the mapping
that caused it. -/
def registerAll (specs : List JsonValue) : Decode (Except (StateError × Nat) (Registry Record)) :=
  go 0 Registry.empty specs
where
  /-- Registers from position `i` on. -/
  go (i : Nat) (r : Registry Record) : List JsonValue → Decode (Except (StateError × Nat) (Registry Record))
    | [] => pure (.ok r)
    | spec :: rest => do
      let m ← mappingOf spec
      match r.register m with
      | .ok r => go (i + 1) r rest
      | .error e => pure (.error (e, i))

/-- The event payload types a request can name. -/
inductive EventType where
  | evA
  | evB
  | text
  | nat64
  | bytes
  | unit
  deriving DecidableEq, Repr

namespace EventType

/-- The names requests use, in the order answers list them. -/
def all : List (String × EventType) :=
  [("EvA", .evA), ("EvB", .evB), ("String", .text), ("u64", .nat64), ("Bytes", .bytes),
   ("Unit", .unit)]

/-- The event type a request names. -/
def ofName (name : String) : Decode EventType :=
  match all.lookup name with
  | some t => pure t
  | none => refuse ("unknown event type " ++ quoted name)

/-- The full type name. -/
def typeName : EventType → String
  | .evA => "driver::EvA"
  | .evB => "driver::EvB"
  | .text => Codec.text.typeName
  | .nat64 => Codec.uint64.typeName
  | .bytes => Codec.bytes.typeName
  | .unit => Codec.unit.typeName

/-- A 64-bit natural payload: a decimal string, or a JSON number that is a natural below 2^64. -/
def nat64Of (v : JsonValue) : Decode UInt64 :=
  match v with
  | .string s =>
    match integerOf 0 18446744073709551615 s with
    | .ok n => pure n.toNat.toUInt64
    | .error e => refuse ("bad u64 payload: " ++ e.message)
  | .number (.nat n) => if n < Nat.pow 2 64 then pure n.toUInt64 else refuse "bad u64 payload"
  | .number _ => refuse "bad u64 payload"
  | _ => refuse "u64 payload must be a number"

/-- A payload of the type, from its request form. -/
def payloadOf (t : EventType) (v : JsonValue) : Decode Payload :=
  match t with
  | .evA | .evB => do
    let r ← recordOfJson "p" v
    pure (Payload.of (recordCodec t.typeName) r)
  | .text =>
    match v with
    | .string s => pure (Payload.of Codec.text s)
    | _ => refuse "String payload must be a string"
  | .nat64 => do pure (Payload.of Codec.uint64 (← nat64Of v))
  | .bytes => do pure (Payload.of Codec.bytes (← bytesOfJson v))
  | .unit => pure (Payload.of Codec.unit ())

end EventType

/-- The event registry a request describes: each type registered in order, under its given name
when that is a string, else under its short name. -/
def eventRegistryOf (specs : List JsonValue) : Decode EventRegistry :=
  specs.foldlM (fun r spec => do
    let t ← EventType.ofName (textOr spec "type")
    match text? spec "name" with
    | some name => pure (r.registerNamed t.typeName name)
    | none => pure (r.register t.typeName)) EventRegistry.empty

end Chaincode.Protocol
