import Chaincode.Protocol.Handlers
import Chaincode.Protocol.Settings
import Chaincode.Protocol.StateRun
import Chaincode.Paper.Contract
import Chaincode.Time.Parse

/-!
# Router and contract requests

A `router` request builds a router from a configuration (the default when absent), registries
and setup actions, then serves its calls in order on one ledger that starts empty; a call that
does not have the expected form, such as one with a malformed timestamp, is answered by its
refusal alone. A `paper`
request does the same with the commercial paper contract. Each call starts a transaction with
the given function, arguments and timestamp (the start of 2024 when none is given) and is
answered by the response with the events and the ledger after it; two calls instead refuse or
accept writes under a prefix.
-/

namespace Chaincode.Protocol

/-- The timestamp of a call: a text timestamp read strictly, else the start of 2024. -/
def timestampOf (call : JsonValue) : Decode Timestamp := do
  match text? call "timestamp" with
  | none => pure Timestamp.newYear2024
  | some s =>
    match Timestamp.parseStrict s with
    | .ok t => pure t
    | .error e => refuse ("bad timestamp: " ++ e.message)

/-- A response as JSON, with the events and the ledger after it. -/
def responseJson (resp : Response) (s : Stub) : JsonValue :=
  .object [("status", .number (.nat resp.status)), ("ok", .bool resp.ok),
    ("message", .string resp.message), ("payload", bytesJson resp.payload),
    ("events", eventsJson s), ("ledger", ledgerJson s)]

/-- Serves one call whose description has the expected form: its answer and the ledger after
it. -/
def serveCall {α : Type} (r : Router α) (call : JsonValue) (s : Stub) : Decode (JsonValue × Stub) := do
  match text? call "do" with
  | some "fail_writes" => do
    let start ← match call.field? "prefix_key" with
      | some _ => do pure (← keyOf call "prefix_key").toComposite
      | none => textOf call "prefix"
    return (.object [("result", .null)], s.failWrites start)
  | some "clear_failures" => return (.object [("result", .null)], s.clearFailures)
  | _ => do
    let args ← (itemsOf call "args").mapM bytesOfJson
    let t ← timestampOf call
    let s := (s.begin (textOr call "function") args).setTimestamp t
    let (resp, s) := (if flagOf call "init" then r.handleInit else r.handle).run s
    return (responseJson resp s, s)

/-- Serves one call: its answer and the ledger after it. A call that does not have the expected
form is answered by its refusal and leaves the ledger as it is. -/
def runCall {α : Type} (r : Router α) (call : JsonValue) (s : Stub) : JsonValue × Stub :=
  match serveCall r call s with
  | .ok result => result
  | .error e => (e.toJson, s)

/-- Serves calls in order. -/
def runCalls {α : Type} (r : Router α) : List JsonValue → Stub → List JsonValue
  | [], _ => []
  | call :: rest, s =>
    let (answer, s) := runCall r call s
    answer :: runCalls r rest s

/-- The answer of a router request: the calls, the router's names, configuration and form. -/
def routerJson {α : Type} (r : Router α) (calls : List JsonValue) : JsonValue :=
  .object [("calls", .array calls),
    ("functions", .object [("init", .array ((r.functions .init).map .string)),
      ("invoke", .array ((r.functions .invoke).map .string))]),
    ("config", r.config.toJson), ("debug", .string r.debug),
    ("entity_types", .number (.nat r.entities.size)),
    ("event_types", .number (.nat r.events.size))]

/-- The configuration a request gives, when it has a `config` member (even `null`), or the
answer for its failure. -/
def requestConfig (req : JsonValue) : Except JsonValue (Option RouterConfig) :=
  match req.field? "config" with
  | none => .ok none
  | some v => (readConfig v).map some

/-- Answers a `router` request: mappings are registered first, then event names; then the
configuration is read and checked, the setup actions are read, and the calls are served. -/
def answerRouter (req : JsonValue) : Decode JsonValue := do
  match ← registerAll (← specsOf req "entities") with
  | .error (e, i) => pure (registrationFailure e i)
  | .ok entities =>
    let events ← eventRegistryOf (← specsOf req "event_types")
    match requestConfig req with
    | .error answer => pure answer
    | .ok config =>
      let base : Except ConfigError (Router Record) := match config with
        | none => .ok (Router.new entities events)
        | some c => Router.withConfig c entities events
      match base with
      | .error e => pure (configFailure e)
      | .ok r =>
        let setup ← (itemsOf req "setup").mapM (registrationOf (member req "setup").depth true)
        let r := r.registerAll "" setup
        return routerJson r (runCalls r (itemsOf req "calls") Stub.empty)

/-- Answers a `paper` request. -/
def answerPaper (req : JsonValue) : JsonValue :=
  match requestConfig req with
  | .error answer => answer
  | .ok config =>
    match Paper.router (config.getD RouterConfig.default) with
    | .error e => failure "RouterBuild" e.message
    | .ok r => routerJson r (runCalls r (itemsOf req "calls") Stub.empty)

end Chaincode.Protocol
