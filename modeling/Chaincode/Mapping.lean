import Chaincode.State.Error

/-!
# Entity mappings

A mapping tells how an entity type is laid out on the ledger. Every primary key starts with the
mapping's namespace, followed by one segment per key field, taken from the entity by the primary
key function. Each unique key has a name, its fields and a function that takes its value from the
entity; its index entries live under the index namespace `namespace_name`, so an index key is that
namespace followed by the unique value, and the index entry holds the encoded primary key.

Identifying values are checked before they become keys: a primary identifier needs exactly as
many segments as there are key fields, a prefix between one and that many, a unique value as
many as the unique key's fields, and no segment may hold the key separator.
-/

namespace Chaincode

/-- A unique constraint of an entity type. -/
structure UniqueKey (α : Type) where
  name : String
  fields : List String
  /-- The unique value of an entity. -/
  extract : α → Key

/-- The ledger layout of an entity type. -/
structure Mapping (α : Type) where
  /-- The entity type. -/
  kind : EntityKind α
  /-- The namespace: the first segment of every primary key. -/
  ns : String
  /-- The names of the identifying fields. -/
  keyFields : List String
  /-- The identifying segments of an entity. -/
  primary : α → Key
  /-- The unique constraints, in declaration order. -/
  uniqueKeys : List (UniqueKey α)

namespace Mapping

variable {α : Type}

/-- A mapping without unique keys. -/
def new (kind : EntityKind α) (ns : String) (keyFields : List String) (primary : α → Key) :
    Mapping α :=
  ⟨kind, ns, keyFields, primary, []⟩

/-- A mapping whose namespace is the entity type's short name. -/
def forType (kind : EntityKind α) (keyFields : List String) (primary : α → Key) : Mapping α :=
  new kind kind.shortName keyFields primary

/-- The mapping with one more unique key. -/
def withUniqueKey (m : Mapping α) (name : String) (fields : List String) (extract : α → Key) :
    Mapping α :=
  { m with uniqueKeys := m.uniqueKeys ++ [⟨name, fields, extract⟩] }

/-- The short name of the entity type. -/
def entity (m : Mapping α) : String := m.kind.shortName

/-- The unique key of a name. -/
def uniqueKey? (m : Mapping α) (name : String) : Option (UniqueKey α) :=
  m.uniqueKeys.find? (·.name = name)

/-- The namespace of a unique key's index entries. -/
def indexNamespace (m : Mapping α) (u : UniqueKey α) : String := m.ns ++ "_" ++ u.name

/-- A failure blaming an identifying value. -/
def identifying (m : Mapping α) (reason : String) : StateError :=
  .invalidIdentifyingValue m.entity reason

/-- Refuses a key with a segment that holds the separator. -/
def checkSegments (m : Mapping α) (k : Key) : Except StateError Unit :=
  match k.invalidSegment? with
  | some i => .error (m.identifying ("segment " ++ toString i ++ " contains the key separator"))
  | none => .ok ()

/-- The primary key of an identifier. -/
def keyFor (m : Mapping α) (id : Key) : Except StateError Key := do
  if id.length ≠ m.keyFields.length then
    throw (m.identifying ("expected " ++ toString m.keyFields.length ++ " key segment(s) " ++
      Text.quoteList m.keyFields ++ ", got " ++ toString id.length))
  m.checkSegments id
  return id.prepend m.ns

/-- The primary key of an entity. -/
def primaryKey (m : Mapping α) (e : α) : Except StateError Key := m.keyFor (m.primary e)

/-- The key prefix of a partial identifier. -/
def prefixFor (m : Mapping α) (part : Key) : Except StateError Key := do
  if part.isEmpty || part.length > m.keyFields.length then
    throw (m.identifying ("prefix must have 1..=" ++ toString m.keyFields.length ++
      " segment(s), got " ++ toString part.length))
  m.checkSegments part
  return part.prepend m.ns

/-- The key of the namespace alone, under which every primary key lies. -/
def namespaceKey (m : Mapping α) : Key := Key.single m.ns

/-- The index key of a unique value. -/
def indexKey (m : Mapping α) (u : UniqueKey α) (value : Key) : Except StateError Key := do
  if value.length ≠ u.fields.length then
    throw (m.identifying ("unique key " ++ u.name ++ " expects " ++ toString u.fields.length ++
      " segment(s), got " ++ toString value.length))
  m.checkSegments value
  return value.prepend (m.indexNamespace u)

/-- A failure blaming the mapping itself. -/
def schema (m : Mapping α) (reason : String) : StateError := .invalidKeySchema m.entity reason

/-- Checks the unique keys from the `i`-th on, given the names of those before. -/
def validateUnique (m : Mapping α) : List String → List (UniqueKey α) → Except StateError Unit
  | _, [] => .ok ()
  | seen, u :: rest => do
    if u.name.isEmpty || u.fields.isEmpty then
      throw (m.schema "unique keys need a name and at least one field")
    if Text.containsChar u.name Key.separator then
      throw (m.schema ("unique key name " ++ Text.quote u.name ++ " contains the key separator"))
    if seen.contains u.name then
      throw (m.schema ("duplicate unique key " ++ u.name))
    m.validateUnique (seen ++ [u.name]) rest

/-- Checks that the mapping is well formed: a namespace of non-empty text without the separator,
at least one key field, and unique keys with a name, at least one field, no separator in the
name and no repeated name. -/
def validate (m : Mapping α) : Except StateError Unit := do
  if m.ns.isEmpty || Text.containsChar m.ns Key.separator then
    throw (m.schema "namespace must be non-empty text")
  if m.keyFields.isEmpty then
    throw (m.schema "at least one key field is required")
  m.validateUnique [] m.uniqueKeys

/-- The namespaces the mapping occupies: its own, then one per unique key. -/
def namespaces (m : Mapping α) : List String := m.ns :: m.uniqueKeys.map m.indexNamespace

/-- The debugging form of a unique key. -/
def UniqueKey.debug (u : UniqueKey α) : String :=
  "UniqueKey \x7b name: " ++ Text.quote u.name ++ ", fields: " ++ Text.quoteList u.fields ++ ", .. \x7d"

/-- The debugging form of the mapping. -/
def debug (m : Mapping α) : String :=
  "EntityMapping \x7b namespace: " ++ Text.quote m.ns ++ ", key_fields: " ++
    Text.quoteList m.keyFields ++ ", unique_keys: [" ++
    ", ".intercalate (m.uniqueKeys.map UniqueKey.debug) ++ "], .. \x7d"

end Mapping

end Chaincode
