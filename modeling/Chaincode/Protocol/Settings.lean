import Chaincode.Protocol.Wire
import Chaincode.Router.Config
import Chaincode.Router.Error
import Chaincode.Telemetry

/-!
# Configuration and failure-text requests

`config` reads a router configuration from JSON and checks it; `telemetry` reads logging
settings from a set of variables; `stub_error` shows the wording of a ledger failure, alone and
as it passes through the state and router layers.
-/

namespace Chaincode.Protocol

/-- A configuration failure as an answer. -/
def configFailure (e : ConfigError) : JsonValue := failure e.kindName e.message

/-- A configuration read from JSON, or the answer for its failure. -/
def readConfig (v : JsonValue) : Except JsonValue RouterConfig :=
  match RouterConfig.ofJson v with
  | .ok c => .ok c
  | .error e => .error (failure "Deserialize" e.message)

/-- Answers a `config` request. -/
def answerConfig (req : JsonValue) : JsonValue :=
  match readConfig (member req "config") with
  | .error answer => answer
  | .ok c =>
    match c.validate with
    | .ok () => .object [("config", c.toJson)]
    | .error e => configFailure e

/-- The variables of a `telemetry` request: the string members of `vars`; any other member is
unset, and `vars` that is not an object sets nothing. -/
def variablesOf (req : JsonValue) : List (String × String) :=
  match member req "vars" with
  | .object members => members.filterMap fun
    | (k, .string s) => some (k, s)
    | _ => none
  | _ => []

/-- Answers a `telemetry` request. -/
def answerTelemetry (req : JsonValue) : JsonValue :=
  let vars := variablesOf req
  let t := TelemetryConfig.ofLookup fun name => vars.lookup name
  .object [("service_name", .string t.serviceName), ("log_level", .string t.logLevel),
    ("json_logs", .bool t.jsonLogs), ("ansi", .bool t.ansi)]

/-- The ledger failure of a kind and its two texts. -/
def stubErrorOf (kind a b : String) : Decode StubError :=
  match kind with
  | "Read" => pure (StubError.read a b)
  | "Write" => pure (StubError.write a b)
  | "Event" => pure (StubError.event a b)
  | "Metadata" => pure (StubError.metadata a)
  | "Other" => pure (StubError.other a)
  | _ => refuse ("unknown stub error " ++ quoted kind)

/-- Answers a `stub_error` request; texts that are absent or not strings are empty. -/
def answerStubError (req : JsonValue) : Decode JsonValue := do
  let e ← stubErrorOf (textOr req "kind") (textOr req "a") (textOr req "b")
  let state := StateError.stub e
  return .object [("stub", .string e.message), ("state", .string state.message),
    ("router", .string (RouterError.state state).message), ("bad_input", .bool state.isBadInput)]

end Chaincode.Protocol
