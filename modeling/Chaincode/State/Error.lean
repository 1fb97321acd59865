import Chaincode.Entity
import Chaincode.Key
import Chaincode.Stub

/-!
# State failures

Why a state operation failed. Each failure has a kind, and the kinds that blame the caller's
input (a malformed identifying value, a value that cannot be converted, a broken domain rule)
are marked as bad input.
-/

namespace Chaincode

/-- Why a state operation failed. -/
inductive StateError where
  /-- The key is already taken. -/
  | keyAlreadyExists (key : Key)
  /-- Nothing is stored under the key. -/
  | notFound (key : Key)
  /-- The entity type's mapping is missing or malformed. -/
  | invalidKeySchema (entity reason : String)
  /-- An identifying value does not form a key. -/
  | invalidIdentifyingValue (entity reason : String)
  /-- A value could not be converted to or from bytes. -/
  | conversion (e : CodecError)
  /-- An event payload's type has no registered name. -/
  | eventTypeNotRegistered (typeName : String)
  /-- A value broke a domain rule. -/
  | validation (e : ValidationError)
  /-- The ledger failed. -/
  | stub (e : StubError)
  deriving DecidableEq, Repr

namespace StateError

/-- The wording of a state failure. -/
def message : StateError → String
  | .keyAlreadyExists key => "key already exists: " ++ key.display
  | .notFound key => "state entry not found: " ++ key.display
  | .invalidKeySchema entity reason => "invalid key schema for " ++ entity ++ ": " ++ reason
  | .invalidIdentifyingValue entity reason =>
    "invalid identifying value for " ++ entity ++ ": " ++ reason
  | .conversion e => e.message
  | .eventTypeNotRegistered typeName => "event type not registered: " ++ typeName
  | .validation e => e.text
  | .stub e => e.message

/-- The name of the failure's kind. -/
def kindName : StateError → String
  | .keyAlreadyExists _ => "KeyAlreadyExists"
  | .notFound _ => "NotFound"
  | .invalidKeySchema _ _ => "InvalidKeySchema"
  | .invalidIdentifyingValue _ _ => "InvalidIdentifyingValue"
  | .conversion _ => "Conversion"
  | .eventTypeNotRegistered _ => "EventTypeNotRegistered"
  | .validation _ => "Validation"
  | .stub _ => "Stub"

/-- Whether the failure blames the caller's input. -/
def isBadInput : StateError → Bool
  | .invalidIdentifyingValue _ _ | .conversion _ | .validation _ => true
  | _ => false

end StateError

end Chaincode
