import Chaincode.Mapping

/-!
# The entity registry

The registry holds one mapping per entity type and records which entity type owns each
namespace. Registering a mapping checks it, refuses a second mapping for the same entity type,
and refuses a mapping that would occupy a namespace already owned; so the namespaces of any two
registered mappings are disjoint.
-/

namespace Chaincode

/-- The registered mappings, and the owner of each occupied namespace. -/
structure Registry (α : Type) where
  /-- The mappings, in registration order. -/
  mappings : List (Mapping α)
  /-- Each occupied namespace with the short name of the entity type that owns it. -/
  owners : List (String × String)

namespace Registry

variable {α : Type}

/-- The registry with nothing registered. -/
def empty : Registry α := ⟨[], []⟩

/-- The mapping of an entity type, by its full type name. -/
def lookup (r : Registry α) (typeName : String) : Option (Mapping α) :=
  r.mappings.find? (·.kind.typeName = typeName)

/-- Whether an entity type is registered. -/
def contains (r : Registry α) (typeName : String) : Bool := (r.lookup typeName).isSome

/-- The number of registered entity types. -/
def size (r : Registry α) : Nat := r.mappings.length

/-- The short name of the entity type that owns a namespace. -/
def ownerOf (r : Registry α) (ns : String) : Option String := r.owners.lookup ns

/-- The mapping of an entity type, or the failure that it is not registered. -/
def mapping (r : Registry α) (kind : EntityKind α) : Except StateError (Mapping α) :=
  match r.lookup kind.typeName with
  | some m => .ok m
  | none => .error (.invalidKeySchema kind.shortName "entity type not registered")

/-- The first namespace of a list that is already owned, with its owner. -/
def firstOwned (r : Registry α) : List String → Option (String × String)
  | [] => none
  | ns :: rest =>
    match r.ownerOf ns with
    | some owner => some (ns, owner)
    | none => r.firstOwned rest

/-- Adds a mapping: it must be well formed, its entity type new and its namespaces free. -/
def register (r : Registry α) (m : Mapping α) : Except StateError (Registry α) := do
  m.validate
  if r.contains m.kind.typeName then
    throw (m.schema "entity type already registered")
  match r.firstOwned m.namespaces with
  | some (ns, owner) =>
    throw (m.schema ("namespace " ++ Text.quote ns ++ " already used by " ++ owner))
  | none =>
    return ⟨r.mappings ++ [m], r.owners ++ m.namespaces.map fun ns => (ns, m.entity)⟩

end Registry

end Chaincode
