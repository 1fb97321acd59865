import Chaincode.Protocol.Steps
import Chaincode.Protocol.Values
import Chaincode.Router.Basic

/-!
# Handlers and middleware described by requests

A `router` request describes its handlers as lists of operations and its middleware by name.
Handler operations run in order, any failure ending the handler, and the payload is the output
of the last operation that has one (empty when none has):

* `return` outputs bytes, `fail` fails with a message;
* `arg` outputs a bound argument's encoding, `args` the bound names, `bound` the bound values
  with their types, `raw_args` the invocation, `trail` the labels traced so far, `scratch` a
  scratch text, `time` the transaction's timestamp and `stub_get` a raw ledger entry;
* `set_arg` binds a text argument;
* `state` runs a state step on the invocation's ledger, after replacing every `{"$arg": name}`
  in it by the bound text argument of that name.

Operations are read as they run: one that does not have the expected form fails the invocation
with its refusal, after the operations before it have taken effect.

The middleware are parameters, logging, checks run before the handler (`before_fail`,
`before_require_arg`, `before_require_scratch`, `deny_prefix`), and wrappers that trace a label
or set a scratch text before calling the next link.
-/

namespace Chaincode.Protocol

/-- A step of the invocation of a described handler. -/
abbrev RecordCall := Call Record

/-- An operation of a described handler. -/
inductive HandlerOp where
  | ret (b : Bytes)
  | fail (message : String)
  | arg (name : String) (t : Plain)
  | args
  | bound
  | rawArgs
  | trail
  | scratch (key : String)
  | setArg (name value : String)
  | time
  | stubGet (key : String)
  | state (step : JsonValue)

/-- The plain types a parameter can take: the eight base types, optional text and optional
64-bit naturals. -/
def paramTypes : List String :=
  ["string", "u64", "i64", "u32", "i32", "bool", "bytes", "unit", "opt_string", "opt_u64"]

/-- The plain type of an argument a handler reads: one a parameter can take. -/
def argTypeOf (name : String) : Decode Plain :=
  if paramTypes.contains name then plainOf name else refuse ("unknown type " ++ quoted name)

/-- A handler operation a request describes; an operation without a text `op` is unknown under
the empty name. -/
def handlerOpOf (v : JsonValue) : Decode HandlerOp := do
  match textOr v "op" with
  | "return" => return .ret (← bytesOfJson (member v "value"))
  | "fail" => return .fail (← textOf v "message")
  | "arg" => do
    let name ← textOf v "name"
    return .arg name (← argTypeOf (← textOf v "type"))
  | "args" => pure .args
  | "bound" => pure .bound
  | "raw_args" => pure .rawArgs
  | "trail" => pure .trail
  | "scratch" => return .scratch (← textOf v "key")
  | "set_arg" => do
    let name ← textOf v "name"
    return .setArg name (← textOf v "value")
  | "time" => pure .time
  | "stub_get" => return .stubGet (← textOf v "key")
  | "state" => return .state (member v "step")
  | op => refuse ("unknown handler op " ++ quoted op)

/-- The failure of an invocation whose description does not have the expected form: the
refusal, marked as a fault of the description rather than of the handler. -/
def describedFailure (e : RequestError) : RouterError := .handler ("driver: " ++ e.message)

/-- The invocation as JSON: its function and raw arguments. -/
def invocationJson (function : String) (args : List Bytes) : JsonValue :=
  .object [("args", .array (args.map bytesJson)), ("function", .string function)]

/-- A bound argument as JSON: its name and its value under its type's name. -/
def boundJson (entry : String × ArgValue) : JsonValue :=
  .array [.string entry.1, .object [(plainName entry.2.type, boundPlain entry.2.type entry.2.value)]]

/-- The argument a placeholder names: its text, or the empty name when it is not text. -/
def placeholderName : JsonValue → String
  | .string name => name
  | _ => ""

mutual

/-- Replaces every placeholder, an object whose only member is `$arg`, by the bound text
argument it names. -/
def substitute : JsonValue → RecordCall JsonValue
  | .array items => do return .array (← substituteItems items)
  | .object members => do
    match members with
    | [("$arg", v)] => return .string (← Call.argText (placeholderName v))
    | _ => return .object (← substituteMembers members)
  | v => pure v

/-- Substitutes in array items. -/
def substituteItems : List JsonValue → RecordCall (List JsonValue)
  | [] => pure []
  | v :: rest => do return (← substitute v) :: (← substituteItems rest)

/-- Substitutes in member values. -/
def substituteMembers : List (String × JsonValue) → RecordCall (List (String × JsonValue))
  | [] => pure []
  | (k, v) :: rest => do return (k, ← substitute v) :: (← substituteMembers rest)

end

/-- Runs a state step within an invocation, placeholders replaced first; a step that does not
have the expected form fails the invocation. -/
def runStateStep (step : JsonValue) : RecordCall JsonValue := do
  let step ← substitute step
  let c ← get
  match stepOp c.entities c.events step with
  | .ok op => Call.ledger op
  | .error e => throw (describedFailure e)

/-- Runs a handler operation: its output, if it has one. -/
def HandlerOp.run : HandlerOp → RecordCall (Option Bytes)
  | .ret b => pure (some b)
  | .fail message => throw (.handler message)
  | .arg name t => do return some (t.codec.encode (← Call.arg t name))
  | .args => do return some (jsonBytes (.array ((← get).argNames.map .string)))
  | .bound => do return some (jsonBytes (.array ((← get).args.map boundJson)))
  | .rawArgs => do
    let c ← get
    return some (jsonBytes (invocationJson c.function c.rawArgs))
  | .trail => do
    return some (jsonBytes (.array (((← get).scratchTexts? "trail").getD [] |>.map .string)))
  | .scratch key => do
    return some (jsonBytes (match (← get).scratchText? key with
      | some s => .string s
      | none => .null))
  | .setArg name value => do
    Call.setArg name ⟨.text, value⟩
    return none
  | .time => do return some (jsonBytes (.string (← Call.time).render))
  | .stubGet key => do
    return some (((← get).stub.get? key).getD (Bytes.ofString "<absent>"))
  | .state step => do return some (jsonBytes (← runStateStep step))

/-- Runs described handler operations in order, each read just before it runs, so that the
operations before a malformed one take effect; the payload is the last output. -/
def runOps : List JsonValue → Bytes → RecordCall Bytes
  | [], out => pure out
  | v :: rest, out => do
    match handlerOpOf v with
    | .error e => throw (describedFailure e)
    | .ok op =>
      match ← op.run with
      | some b => runOps rest b
      | none => runOps rest out

/-- The handler described by a list of operations; anything else describes no operation. -/
def handlerOf (v : JsonValue) : Handler Record :=
  match v with
  | .array items => runOps items []
  | _ => runOps [] []

/-- A check that runs before the next link. -/
def checkFirst (check : RecordCall Unit) : Middleware Record := Middleware.before check

/-- The plain type of a parameter a request describes. -/
def paramTypeOf (name : String) : Decode Plain :=
  if paramTypes.contains name then plainOf name
  else refuse ("unknown param type " ++ quoted name)

/-- The middleware a request describes. -/
def middlewareOf (v : JsonValue) : Decode (Middleware Record) := do
  match ← textOf v "mw" with
  | "param" => do
    let name ← textOf v "name"
    return .param name (← paramTypeOf (← textOf v "type"))
  | "logging" => pure Middleware.logging
  | "before_fail" => do
    let message ← textOf v "message"
    return checkFirst (throw (.handler message))
  | "before_require_arg" => do
    let name ← textOf v "name"
    return checkFirst (do let _ ← Call.argText name)
  | "before_require_scratch" => do
    let key ← textOf v "key"
    return checkFirst do
      if ((← get).scratchText? key).isNone then throw (.handler ("scratch " ++ key ++ " missing"))
  | "deny_prefix" => do
    let start ← textOf v "prefix"
    let message ← textOf v "message"
    return checkFirst do
      if Text.startsWith (← get).function start then throw (.handler message)
  | "trace" => do
    let label ← textOf v "label"
    return .wrap fun next => (do
      let trail := ((← get).scratchTexts? "trail").getD []
      Call.setScratch "trail" (.texts (trail ++ [label]))
      next : RecordCall Bytes)
  | "set_scratch" => do
    let key ← textOf v "key"
    let value ← textOf v "value"
    return .wrap fun next => (do
      Call.setScratch key (.text value)
      next : RecordCall Bytes)
  | other => refuse ("unknown middleware " ++ quoted other)

/-- The middleware list of a request member that may be left out. -/
def middlewareListOf (v : JsonValue) (name : String) : Decode (List (Middleware Record)) :=
  match v.field? name with
  | none => pure []
  | some (.array items) => items.mapM middlewareOf
  | some _ => refuse "middleware must be a list"

/-- Bytes in their wire form, or none when the value is not bytes. -/
def bytesOr (v : JsonValue) : Bytes :=
  match bytesOfJson v with
  | .ok b => b
  | .error _ => []

/-- The stub handler a request describes: a fixed success (`ok`, its payload empty when it is not
bytes), a fixed failure (`error`, when it is text), a ledger write (`put`, its key and value empty
when they are not text and bytes), or else an echo of the invocation. -/
def stubHandlerOf (v : JsonValue) : StubHandler :=
  match v.field? "ok", text? v "error", v.field? "put" with
  | some b, _, _ => pure (Response.success (bytesOr b))
  | none, some message, _ => pure (Response.error message)
  | none, none, some p => do
    match (← get).put (textOr p "key") (bytesOr (member p "value")) with
    | .ok s => do set s; pure (Response.success [])
    | .error e => pure (Response.error e.message)
  | none, none, none => do
    let s ← get
    pure (Response.success (jsonBytes (invocationJson s.function s.args)))

/-- The registration a setup action describes. The first of these decides: `use`; a text
`invoke`, `query` or `context_invoke`, with the action's middleware; a text `stub_invoke`; a text
`group`, whose actions nest at most `fuel` deep. Otherwise the action's middleware are read, and
at the top level `init` or a text `init_named` decides; an action that none of these decides is
refused. -/
def registrationOf : Nat → Bool → JsonValue → Decode (Registration Record)
  | 0, _, _ => refuse "setup nested too deeply"
  | fuel + 1, top, v => do
    let handler := handlerOf (member v "handler")
    if (v.field? "use").isSome then return .use (← middlewareListOf v "use")
    else if let some name := text? v "invoke" then
      return .invoke name handler (← middlewareListOf v "mw")
    else if let some name := text? v "query" then
      return .invoke name handler (← middlewareListOf v "mw")
    else if let some name := text? v "context_invoke" then
      return .contextInvoke name (do let _ ← handler) (← middlewareListOf v "mw")
    else if let some name := text? v "stub_invoke" then
      return .stubInvoke name (stubHandlerOf (member v "stub"))
    else if let some pre := text? v "group" then
      return .group pre (← (itemsOf v "setup").mapM (registrationOf fuel false))
    else
      let mws ← middlewareListOf v "mw"
      if top && (v.field? "init").isSome then return .init (handlerOf (member v "init")) mws
      else if let some name := (if top then text? v "init_named" else none) then
        return .initNamed name handler mws
      else refuse ("unknown setup action " ++ v.render)

end Chaincode.Protocol
