import Chaincode.Protocol.Fixtures
import Chaincode.Batch

/-!
# State steps

A state step names an operation of the state layer (`insert`, `get`, `list_with`, `batch`, ...)
with its arguments. `stepOp` turns a step into a ledger operation whose result is the step's JSON
answer; a step that does not have the expected form is refused before anything runs, a batch
with all its commands and events read first.
-/

namespace Chaincode.Protocol

open LedgerOp

/-- A record list as JSON. -/
def recordsJson (rs : List Record) : JsonValue := .array (rs.map recordJson)

/-- The mapping of an entity type as JSON, with its debugging form. -/
def mappingJson (m : Mapping Record) : JsonValue :=
  .object [("namespace", .string m.ns), ("key_fields", .array (m.keyFields.map .string)),
    ("unique_keys", .array (m.uniqueKeys.map fun u =>
      .object [("name", .string u.name), ("fields", .array (u.fields.map .string)),
        ("index_namespace", .string (m.indexNamespace u))])),
    ("debug", .string m.debug)]

/-- A staged command of a batch request: its kind and entity type are read before what it
stages. -/
def commandOf (v : JsonValue) : Decode (Command Record) := do
  let op ← textOf v "op"
  let kind ← entityTypeOf v
  match op with
  | "insert" => return .insert kind (← recordOfJson "entity" (member v "entity"))
  | "put" => return .put kind (← recordOfJson "entity" (member v "entity"))
  | "delete" => return .delete kind (← keyOf v "id")
  | _ => refuse ("unknown command " ++ quoted op)

/-- A staged event of a request: its type, its payload, and its name when that is a string. -/
def stagedEventOf (v : JsonValue) : Decode StagedEvent := do
  let t ← EventType.ofName (← textOf v "type")
  let p ← t.payloadOf (member v "payload")
  match text? v "name" with
  | some name => pure (.named name p)
  | none => pure (.typed p)

/-- The batch a request stages: its commands in order, and the last of its events. -/
def batchOf (v : JsonValue) : Decode (Batch Record) := do
  let commands ← (itemsOf v "commands").mapM commandOf
  let events ← (itemsOf v "events").mapM stagedEventOf
  return events.foldl Batch.setEvent (commands.foldl Batch.push Batch.empty)

/-- What a batch staged, as JSON. -/
def batchJson (b : Batch Record) : JsonValue :=
  .object [("len", .number (.nat b.commands.length)), ("is_empty", .bool b.commands.isEmpty),
    ("has_event", .bool b.event.isSome),
    ("commands", .array (b.commands.map fun c => .array [.string c.kind.label, .string c.entity])),
    ("debug", .string b.debug)]

/-- The operation of a step on one entity type, its result as JSON. -/
def typedStepOp (reg : Registry Record) (kind : EntityKind Record) (step : JsonValue) :
    String → Decode (LedgerOp JsonValue)
  | "insert" => do
    let e ← recordOfJson "entity" (member step "entity")
    return do insert reg kind e; pure .null
  | "put" => do
    let e ← recordOfJson "entity" (member step "entity")
    return do put reg kind e; pure .null
  | "delete" => do
    let id ← keyOf step "id"
    return do delete reg kind id; pure .null
  | "get" => do
    let id ← keyOf step "id"
    return recordJson <$> getEntity reg kind id
  | "get_or_default" => do
    let id ← keyOf step "id"
    return recordJson <$> getOrDefault reg kind id
  | "exists" => do
    let id ← keyOf step "id"
    return JsonValue.bool <$> exists? reg kind id
  | "list" => return recordsJson <$> list reg kind
  | "list_with" => do
    let part ← keyOf step "partial"
    return recordsJson <$> listWith reg kind part
  | "get_by_unique" => do
    let name ← textOf step "name"
    let value ← keyOf step "value"
    return recordJson <$> getByUnique reg kind name value
  | "exists_by_unique" => do
    let name ← textOf step "name"
    let value ← keyOf step "value"
    return JsonValue.bool <$> existsByUnique reg kind name value
  | "compose" => do
    let id ← keyOf step "id"
    return keyJson <$> lift (do (← reg.mapping kind).keyFor id)
  | "compose_prefix" => do
    let part ← keyOf step "partial"
    return keyJson <$> lift (do (← reg.mapping kind).prefixFor part)
  | "compose_entity" => do
    let e ← recordOfJson "entity" (member step "entity")
    return keyJson <$> lift (do (← reg.mapping kind).primaryKey e)
  | "compose_namespace" => return keyJson <$> lift (do return (← reg.mapping kind).namespaceKey)
  | "lookup" =>
    return pure (match reg.lookup kind.typeName with
      | some m => mappingJson m
      | none => .null)
  | "contains" => return pure (.bool (reg.contains kind.typeName))
  | other => refuse ("unknown step " ++ quoted other)

/-- The operation of a state step, its result as JSON. Steps on the ledger, the registry or
events name no entity type; every other step names one, which is resolved before the step's
name is. -/
def stepOp (reg : Registry Record) (events : EventRegistry) (step : JsonValue) :
    Decode (LedgerOp JsonValue) := do
  match ← textOf step "do" with
  | "owner_of" => do
    let ns ← textOf step "namespace"
    return pure (match reg.ownerOf ns with
      | some owner => .string owner
      | none => .null)
  | "registry_len" =>
    return pure (.object [("len", .number (.nat reg.size)), ("is_empty", .bool (reg.size = 0))])
  | "get_raw" => do
    let k ← keyOf step "key"
    return (fun r => match r with
      | some b => bytesJson b
      | none => .null) <$> getRaw k
  | "put_raw" => do
    let b ← bytesOfJson (member step "value")
    let k ← keyOf step "key"
    return do putRaw Codec.bytes k b; pure .null
  | "delete_raw" => do
    let k ← keyOf step "key"
    return do deleteRaw k; pure .null
  | "emit" => do
    let ev ← stagedEventOf step
    return do ev.emit events; pure .null
  | "batch" => do
    let b ← batchOf step
    return do b.apply reg events; pure (batchJson b)
  | name => do
    let kind ← entityTypeOf step
    typedStepOp reg kind step name

/-- The operation of a step that controls the ledger's fault injection, when the step is one:
`fail_writes` disables writes under a prefix, given as a key or as raw text, and
`clear_failures` enables them all again. -/
def faultStepOp? (step : JsonValue) : Option (Decode (LedgerOp JsonValue)) :=
  match text? step "do" with
  | some "fail_writes" => some do
    let start ← match step.field? "prefix_key" with
      | some _ => do pure (← keyOf step "prefix_key").toComposite
      | none => textOf step "prefix"
    return do modify (·.failWrites start); pure .null
  | some "clear_failures" => some (pure do modify Stub.clearFailures; pure .null)
  | _ => none

end Chaincode.Protocol
