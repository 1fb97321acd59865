import Chaincode.Registry
import Chaincode.Event
import Chaincode.Text.Utf8

/-!
# Typed state over the ledger

A `LedgerOp` reads and writes the ledger stub and may fail; writes made before a failure stay,
as nothing is rolled back.

The typed operations find the entity type's mapping in the registry, turn identifiers into keys,
and read or write entity encodings:

* `insert` checks, in order: the domain rule, the mapping, the primary key, that the primary key
  is free, then each unique key in declaration order (its value must form a key, and its index
  entry must be free or already point at this primary key). Only then does it write the entity
  and afterwards each index entry.
* `put` is `insert` without the check that the primary key is free, so it replaces an entity;
  index entries of unique values the entity no longer has stay behind.
* `delete` reads the stored entity, erases its primary entry, then erases the index entry of
  each of its unique values.
* `list` decodes every entry under the namespace in key order, and `listWith` every entry
  under a partial identifier.

Events are emitted under the name the event registry gives their payload type, or under an
explicit name.
-/

namespace Chaincode

/-- An operation on the ledger that may fail, keeping the writes made before the failure. -/
abbrev LedgerOp := ExceptT StateError (StateM Stub)

namespace LedgerOp

variable {α β : Type}

/-- A result or a failure, as an operation. -/
def lift (r : Except StateError β) : LedgerOp β :=
  match r with
  | .ok v => pure v
  | .error e => throw e

/-- The bytes stored under a key. -/
def getRaw (k : Key) : LedgerOp (Option Bytes) := do return (← get).get? k.toComposite

/-- Stores bytes under a key. -/
def putBytes (k : Key) (b : Bytes) : LedgerOp Unit := do
  match (← get).put k.toComposite b with
  | .ok s => set s
  | .error e => throw (.stub e)

/-- Stores the encoding of a value under a key. -/
def putRaw {γ : Type} (c : Codec γ) (k : Key) (v : γ) : LedgerOp Unit := putBytes k (c.encode v)

/-- Erases a key. -/
def deleteRaw (k : Key) : LedgerOp Unit := do
  match (← get).erase k.toComposite with
  | .ok s => set s
  | .error e => throw (.stub e)

/-- Decodes an entity. -/
def decode (kind : EntityKind α) (b : Bytes) : LedgerOp α := lift ((kind.codec.decode b).mapError .conversion)

/-- The entity stored under a key. -/
def getAt (kind : EntityKind α) (k : Key) : LedgerOp α := do
  match ← getRaw k with
  | some b => decode kind b
  | none => throw (.notFound k)

/-- The entity with an identifier. -/
def getEntity (reg : Registry α) (kind : EntityKind α) (id : Key) : LedgerOp α := do
  let m ← lift (reg.mapping kind)
  getAt kind (← lift (m.keyFor id))

/-- The entity with an identifier, or the type's stand-in when none is stored. -/
def getOrDefault (reg : Registry α) (kind : EntityKind α) (id : Key) : LedgerOp α := do
  let m ← lift (reg.mapping kind)
  match ← getRaw (← lift (m.keyFor id)) with
  | some b => decode kind b
  | none => pure kind.default

/-- Whether an entity with an identifier is stored. -/
def exists? (reg : Registry α) (kind : EntityKind α) (id : Key) : LedgerOp Bool := do
  let m ← lift (reg.mapping kind)
  return (← getRaw (← lift (m.keyFor id))).isSome

/-- Decodes scanned entries in key order, stopping at the first failure. -/
def decodeAll (kind : EntityKind α) : List (String × Bytes) → LedgerOp (List α)
  | [] => pure []
  | (_, b) :: rest => do
    let v ← decode kind b
    return v :: (← decodeAll kind rest)

/-- The entities stored under a key prefix, in key order. -/
def scan (kind : EntityKind α) (start : Key) : LedgerOp (List α) := do
  decodeAll kind ((← get).scan start.toComposite)

/-- Every stored entity of a type, in key order. -/
def list (reg : Registry α) (kind : EntityKind α) : LedgerOp (List α) := do
  let m ← lift (reg.mapping kind)
  scan kind m.namespaceKey

/-- The stored entities of a type whose identifiers start with a partial identifier. -/
def listWith (reg : Registry α) (kind : EntityKind α) (part : Key) : LedgerOp (List α) := do
  let m ← lift (reg.mapping kind)
  scan kind (← lift (m.prefixFor part))

/-- The unique key of a name, or the failure that it is not declared. -/
def uniqueKey (m : Mapping α) (name : String) : Except StateError (UniqueKey α) :=
  match m.uniqueKey? name with
  | some u => .ok u
  | none => .error (m.schema ("unique key " ++ Text.quote name ++ " is not declared"))

/-- The primary key an index entry points at. -/
def resolveUnique (reg : Registry α) (kind : EntityKind α) (name : String) (value : Key) :
    LedgerOp Key := do
  let m ← lift (reg.mapping kind)
  let index ← lift (m.indexKey (← lift (uniqueKey m name)) value)
  match ← getRaw index with
  | none => throw (.notFound index)
  | some b =>
    match Text.Utf8.decode b with
    | .error e => throw (.conversion (.decode "cc_01_state_mapping::domain::key::Key" e.message))
    | .ok s => lift ((Key.ofComposite? s).mapError .conversion)

/-- The entity a unique value points at. -/
def getByUnique (reg : Registry α) (kind : EntityKind α) (name : String) (value : Key) :
    LedgerOp α := do
  getAt kind (← resolveUnique reg kind name value)

/-- Whether an index entry exists for a unique value. -/
def existsByUnique (reg : Registry α) (kind : EntityKind α) (name : String) (value : Key) :
    LedgerOp Bool := do
  let m ← lift (reg.mapping kind)
  let index ← lift (m.indexKey (← lift (uniqueKey m name)) value)
  return (← getRaw index).isSome

/-- The index keys of an entity's unique values, each free or already pointing at `owner`. -/
def claimUnique (m : Mapping α) (e : α) (owner : Key) : List (UniqueKey α) → LedgerOp (List Key)
  | [] => pure []
  | u :: rest => do
    let index ← lift (m.indexKey u (u.extract e))
    match ← getRaw index with
    | some existing =>
      if existing ≠ Bytes.ofString owner.toComposite then throw (.keyAlreadyExists index)
    | none => pure ()
    return index :: (← claimUnique m e owner rest)

/-- Writes an entity under its primary key, then each index entry pointing at it. -/
def write (kind : EntityKind α) (e : α) (key : Key) (indexes : List Key) : LedgerOp Unit := do
  putBytes key (kind.codec.encode e)
  indexes.forM fun index => putBytes index (Bytes.ofString key.toComposite)

/-- Checks the domain rule of an entity. -/
def validate (kind : EntityKind α) (e : α) : LedgerOp Unit :=
  lift ((kind.validate e).mapError .validation)

/-- Stores a new entity; its primary key and unique values must be free. -/
def insert (reg : Registry α) (kind : EntityKind α) (e : α) : LedgerOp Unit := do
  validate kind e
  let m ← lift (reg.mapping kind)
  let key ← lift (m.primaryKey e)
  if (← getRaw key).isSome then throw (.keyAlreadyExists key)
  let indexes ← claimUnique m e key m.uniqueKeys
  write kind e key indexes

/-- Stores an entity, replacing any under its primary key; its unique values must be free or
its own. -/
def put (reg : Registry α) (kind : EntityKind α) (e : α) : LedgerOp Unit := do
  validate kind e
  let m ← lift (reg.mapping kind)
  let key ← lift (m.primaryKey e)
  let indexes ← claimUnique m e key m.uniqueKeys
  write kind e key indexes

/-- Erases the index entries of an entity's unique values. -/
def eraseIndexes (m : Mapping α) (stored : α) : List (UniqueKey α) → LedgerOp Unit
  | [] => pure ()
  | u :: rest => do
    deleteRaw (← lift (m.indexKey u (u.extract stored)))
    eraseIndexes m stored rest

/-- Erases a stored entity and its index entries. -/
def delete (reg : Registry α) (kind : EntityKind α) (id : Key) : LedgerOp Unit := do
  let m ← lift (reg.mapping kind)
  let key ← lift (m.keyFor id)
  let stored ← getAt kind key
  deleteRaw key
  eraseIndexes m stored m.uniqueKeys

/-- Emits an event under an explicit name. -/
def emitNamed (name : String) (p : Payload) : LedgerOp Unit := modify (·.emit name p.bytes)

/-- Emits an event under the name registered for its payload type. -/
def emit (events : EventRegistry) (p : Payload) : LedgerOp Unit :=
  match events.nameOf p.typeName with
  | some name => emitNamed name p
  | none => throw (.eventTypeNotRegistered p.shortName)

end LedgerOp

end Chaincode
