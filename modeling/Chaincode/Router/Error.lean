import Chaincode.State.Error

/-!
# Router failures

Why an invocation failed. State, ledger, conversion and validation failures pass through with
their own wording; a handler's own failure is its message alone.
-/

namespace Chaincode

/-- Why an invocation failed. -/
inductive RouterError where
  /-- No handler is registered under the function name. -/
  | methodNotFound (function : String)
  /-- The arguments do not fit the handler. -/
  | argsMismatch (reason : String)
  | conversion (e : CodecError)
  | validation (e : ValidationError)
  | state (e : StateError)
  | stub (e : StubError)
  /-- A handler refused the invocation. -/
  | handler (message : String)
  deriving DecidableEq, Repr

/-- The wording of an invocation failure. -/
def RouterError.message : RouterError → String
  | .methodNotFound function => "method not found: " ++ function
  | .argsMismatch reason => "arguments mismatch: " ++ reason
  | .conversion e => e.message
  | .validation e => e.text
  | .state e => e.message
  | .stub e => e.message
  | .handler message => message

/-- The outcome of an invocation, as the peer receives it. -/
structure Response where
  ok : Bool
  message : String
  payload : Bytes
  deriving DecidableEq, Repr

namespace Response

/-- A successful invocation with its payload. -/
def success (payload : Bytes) : Response := ⟨true, "", payload⟩

/-- A failed invocation with its message and no payload. -/
def error (message : String) : Response := ⟨false, message, []⟩

/-- The status code: 200 for success, 500 for failure. -/
def status (r : Response) : Nat := if r.ok then 200 else 500

end Response

end Chaincode
