import Chaincode.Bytes
import Chaincode.Text.Basic
import Chaincode.Text.Quoted
import Chaincode.Time.Timestamp

/-!
# The ledger stub

A ledger as a transaction sees it: a map from raw key texts to bytes, the events emitted by the
current transaction, the function name and arguments it was invoked with, and its timestamp.

Entries are kept sorted by key, and a later write to a key replaces the earlier one. A range scan
starts at the first key not below the prefix and takes entries while their keys start with the
prefix; on a sorted ledger this is exactly the entries under the prefix, in key order.

Writes can be refused on purpose: every write (put or erase) whose key starts with one of the
`failing` prefixes fails with a write error naming the first such prefix, and changes nothing.
-/

namespace Chaincode

/-- Why a ledger operation failed. -/
inductive StubError where
  | read (key reason : String)
  | write (key reason : String)
  | event (name reason : String)
  | metadata (reason : String)
  | other (reason : String)
  deriving DecidableEq, Repr

/-- The wording of a ledger failure. -/
def StubError.message : StubError → String
  | .read key reason => "ledger read failed for key " ++ Text.quote key ++ ": " ++ reason
  | .write key reason => "ledger write failed for key " ++ Text.quote key ++ ": " ++ reason
  | .event name reason => "event emission failed for " ++ Text.quote name ++ ": " ++ reason
  | .metadata reason => "transaction metadata unavailable: " ++ reason
  | .other reason => "ledger stub error: " ++ reason

/-- An emitted event: its name and payload. -/
structure Event where
  name : String
  payload : Bytes
  deriving DecidableEq, Repr

/-- The ledger and the current transaction. -/
structure Stub where
  /-- The ledger entries, sorted by key. -/
  entries : List (String × Bytes)
  /-- The events of the current transaction, in emission order. -/
  events : List Event
  /-- The invoked function. -/
  function : String
  /-- The raw arguments of the invocation. -/
  args : List Bytes
  /-- The transaction's timestamp. -/
  timestamp : Timestamp
  /-- Key prefixes under which writes are refused, in the order they were added. -/
  failing : List String

namespace Stub

/-- An empty ledger with no transaction under way, at the start of 2024. -/
def empty : Stub := ⟨[], [], "", [], Timestamp.newYear2024, []⟩

/-- The bytes stored under a key. -/
def get? (s : Stub) (key : String) : Option Bytes := s.entries.lookup key

/-- Stores bytes under a key in a sorted entry list, replacing what was there. -/
def upsert (key : String) (value : Bytes) : List (String × Bytes) → List (String × Bytes)
  | [] => [(key, value)]
  | (k, v) :: rest =>
    if key = k then (key, value) :: rest
    else if key < k then (key, value) :: (k, v) :: rest
    else (k, v) :: upsert key value rest

/-- Removes a key from an entry list. -/
def remove (key : String) (entries : List (String × Bytes)) : List (String × Bytes) :=
  entries.filter fun e => e.1 ≠ key

/-- The refusal of a write under a refused prefix, if any. -/
def writeCheck (s : Stub) (key : String) : Except StubError Unit :=
  match s.failing.find? (Text.startsWith key) with
  | some p => .error (.write key ("writes under " ++ Text.quote p ++ " are disabled"))
  | none => .ok ()

/-- Stores bytes under a key, unless writes there are refused. -/
def put (s : Stub) (key : String) (value : Bytes) : Except StubError Stub := do
  s.writeCheck key
  return { s with entries := upsert key value s.entries }

/-- Removes a key, unless writes there are refused. -/
def erase (s : Stub) (key : String) : Except StubError Stub := do
  s.writeCheck key
  return { s with entries := remove key s.entries }

/-- The entries from the first key not below `start`, while their keys start with `start`. -/
def scan (s : Stub) (start : String) : List (String × Bytes) :=
  (s.entries.dropWhile fun e => e.1 < start).takeWhile fun e => Text.startsWith e.1 start

/-- Records an event of the current transaction. -/
def emit (s : Stub) (name : String) (payload : Bytes) : Stub :=
  { s with events := s.events ++ [⟨name, payload⟩] }

/-- Starts a transaction: the invocation is recorded and the events are cleared. -/
def begin (s : Stub) (function : String) (args : List Bytes) : Stub :=
  { s with function := function, args := args, events := [] }

/-- Sets the transaction's timestamp. -/
def setTimestamp (s : Stub) (t : Timestamp) : Stub := { s with timestamp := t }

/-- Refuses writes under one more prefix. -/
def failWrites (s : Stub) (start : String) : Stub := { s with failing := s.failing ++ [start] }

/-- Accepts writes everywhere again. -/
def clearFailures (s : Stub) : Stub := { s with failing := [] }

end Stub

end Chaincode
