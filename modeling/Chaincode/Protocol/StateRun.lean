import Chaincode.Protocol.Steps

/-!
# State requests

A `state` request registers mappings and event names, then runs its steps in order on one ledger
that starts empty. Each step is answered by its result or its failure, with the ledger and the
events emitted so far; a step that does not have the expected form is answered by its refusal
and the steps after it still run. A mapping that cannot be registered answers the whole request with the
failure and the position of the mapping.
-/

namespace Chaincode.Protocol

/-- The answer for a registration failure of the mapping at a position. -/
def registrationFailure (e : StateError) (at_ : Nat) : JsonValue :=
  .object [("error", .string e.kindName), ("message", .string e.message),
    ("at", .number (.nat at_))]

/-- The event names a request's answer shows. -/
def eventNamesJson (events : EventRegistry) : JsonValue :=
  .object ([("len", .number (.nat events.size)), ("is_empty", .bool (events.size = 0))] ++
    EventType.all.map fun (name, t) => (name, match events.nameOf t.typeName with
      | some n => .string n
      | none => .null))

/-- Runs an operation on a ledger: the answer of the step and the ledger after it. -/
def runStep (op : LedgerOp JsonValue) (s : Stub) : JsonValue × Stub :=
  let (r, s) := (op.run).run s
  let outcome := match r with
    | .ok v => [("result", v)]
    | .error e => stateFailureMembers e
  (.object (outcome ++ [("ledger", ledgerJson s), ("events", eventsJson s)]), s)

/-- Answers a step that does not have the expected form: the refusal, with the ledger and the
events as they stand. -/
def refusedStep (e : RequestError) (s : Stub) : JsonValue :=
  .object [("error", .string "DriverError"), ("message", .string e.message),
    ("ledger", ledgerJson s), ("events", eventsJson s)]

/-- The operation of a step of a `state` request: fault injection, or a state step. -/
def requestStepOp (reg : Registry Record) (events : EventRegistry) (step : JsonValue) :
    Decode (LedgerOp JsonValue) :=
  (faultStepOp? step).getD (stepOp reg events step)

/-- Runs steps in order, each decoded just before it runs; a step that does not have the
expected form is answered by its refusal and leaves the ledger as it is. -/
def runSteps (reg : Registry Record) (events : EventRegistry) :
    List JsonValue → Stub → List JsonValue
  | [], _ => []
  | step :: rest, s =>
    match requestStepOp reg events step with
    | .ok op =>
      let (answer, s) := runStep op s
      answer :: runSteps reg events rest s
    | .error e => refusedStep e s :: runSteps reg events rest s

/-- Answers a `state` request: mappings are registered first, then event names, then the steps
run. -/
def answerState (req : JsonValue) : Decode JsonValue := do
  match ← registerAll (← specsOf req "entities") with
  | .error (e, i) => pure (registrationFailure e i)
  | .ok reg =>
    let events ← eventRegistryOf (← specsOf req "event_types")
    let answers := runSteps reg events (itemsOf req "steps") Stub.empty
    return .object [("steps", .array answers), ("event_names", eventNamesJson events)]

end Chaincode.Protocol
