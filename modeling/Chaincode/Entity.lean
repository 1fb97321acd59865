import Chaincode.Codec.Basic

/-!
# Entities

An entity type is what the state layer stores: a codec for its values, the domain rule every
value must pass before it is written, and the value that stands in for a missing one.
-/

namespace Chaincode

/-- A value that breaks a domain rule, with the rule's explanation. -/
structure ValidationError where
  message : String
  deriving DecidableEq, Repr

/-- The wording of a broken rule. -/
def ValidationError.text (e : ValidationError) : String := "validation failed: " ++ e.message

/-- A type of stored entity. -/
structure EntityKind (α : Type) where
  /-- How values are stored. -/
  codec : Codec α
  /-- The domain rule checked before every write. -/
  validate : α → Except ValidationError Unit
  /-- The value that stands in for a missing entity. -/
  default : α

namespace EntityKind

/-- The full type name. -/
def typeName {α : Type} (k : EntityKind α) : String := k.codec.typeName

/-- The short type name, as state failures report it. -/
def shortName {α : Type} (k : EntityKind α) : String := k.codec.shortName

end EntityKind

end Chaincode
