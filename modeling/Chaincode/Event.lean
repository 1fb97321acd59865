import Chaincode.Codec.Basic

/-!
# Events

An event payload is a value of some type, carried as its type's name and its encoding. The event
registry gives each payload type the name its events are emitted under; by default that is the
type's short name, and registering a type again replaces its name.
-/

namespace Chaincode

/-- An event payload: the full name of its type and its encoding. -/
structure Payload where
  typeName : String
  bytes : Bytes
  deriving DecidableEq, Repr

/-- The payload of a value. -/
def Payload.of {β : Type} (c : Codec β) (x : β) : Payload := ⟨c.typeName, c.encode x⟩

/-- The short name of a payload's type. -/
def Payload.shortName (p : Payload) : String := shortTypeName p.typeName

/-- Event names by payload type. -/
structure EventRegistry where
  /-- Each registered type's full name with its event name, one entry per type. -/
  names : List (String × String)

namespace EventRegistry

/-- The registry with no type registered. -/
def empty : EventRegistry := ⟨[]⟩

/-- Gives a type an event name, replacing any earlier one. -/
def registerNamed (r : EventRegistry) (typeName name : String) : EventRegistry :=
  if r.names.any (·.1 = typeName) then
    ⟨r.names.map fun e => if e.1 = typeName then (typeName, name) else e⟩
  else ⟨r.names ++ [(typeName, name)]⟩

/-- Gives a type its short name as event name. -/
def register (r : EventRegistry) (typeName : String) : EventRegistry :=
  r.registerNamed typeName (shortTypeName typeName)

/-- The event name of a type. -/
def nameOf (r : EventRegistry) (typeName : String) : Option String := r.names.lookup typeName

/-- The number of registered types. -/
def size (r : EventRegistry) : Nat := r.names.length

end EventRegistry

end Chaincode
