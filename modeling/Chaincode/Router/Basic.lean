import Chaincode.Router.Config
import Chaincode.Router.Middleware

/-!
# Routers

A router serves invocations by function name. It keeps two tables, one for the initialisation
phase and one for ordinary invocations; each table has three kinds of handlers: stub handlers,
which see only the ledger and bypass all middleware, context handlers, whose payload is empty,
and result handlers. Looking a name up tries the three kinds in that order. Registering a name
again in the same kind replaces the handler.

A handler is composed with the router's middleware as it stands when the handler is registered,
so middleware added later does not reach it. A group registers under its prefix followed by the
name, and a group's middleware goes to the router.

An invocation of a name that no handler serves fails with `method not found`; an initialisation
with an empty function name invokes the configured initialisation function.
-/

namespace Chaincode

/-- The phases of a chaincode's life. -/
inductive Phase where
  | init
  | invoke
  deriving DecidableEq, Repr

/-- A handler that sees only the ledger and answers directly. -/
abbrev StubHandler := StateM Stub Response

/-- What serves a function name. -/
inductive Route (α : Type) where
  | stub (h : StubHandler)
  | chain (h : Handler α)

/-- The handlers of one phase, by function name. -/
structure HandlerTable (α : Type) where
  stub : List (String × StubHandler)
  context : List (String × Handler α)
  result : List (String × Handler α)

/-- Inserts a name into a sorted list without repeats. -/
def insertName (name : String) : List String → List String
  | [] => [name]
  | n :: rest =>
    if name = n then n :: rest
    else if name < n then name :: n :: rest
    else n :: insertName name rest

namespace HandlerTable

variable {α : Type}

/-- The table with no handlers. -/
def empty : HandlerTable α := ⟨[], [], []⟩

/-- What serves a name: a stub handler first, then a context handler, then a result handler. -/
def lookup (t : HandlerTable α) (function : String) : Option (Route α) :=
  match t.stub.lookup function with
  | some h => some (.stub h)
  | none =>
    match t.context.lookup function with
    | some h => some (.chain h)
    | none => (t.result.lookup function).map .chain

/-- The served names, sorted, each once. -/
def names (t : HandlerTable α) : List String :=
  (t.stub.map (·.1) ++ t.context.map (·.1) ++ t.result.map (·.1)).foldr insertName []

end HandlerTable

/-- A router: its configuration, registries, middleware and handler tables. -/
structure Router (α : Type) where
  config : RouterConfig
  entities : Registry α
  events : EventRegistry
  /-- The router's middleware, in registration order. -/
  middleware : List (Middleware α)
  init : HandlerTable α
  invoke : HandlerTable α

/-- A registration: middleware for the router, a handler under a name, or a group of them. -/
inductive Registration (α : Type) where
  | use (mws : List (Middleware α))
  /-- A result handler for ordinary invocations. -/
  | invoke (name : String) (h : Handler α) (mws : List (Middleware α))
  /-- A context handler for ordinary invocations; its payload is empty. -/
  | contextInvoke (name : String) (h : Call α Unit) (mws : List (Middleware α))
  | stubInvoke (name : String) (h : StubHandler)
  /-- A handler for the configured initialisation function. -/
  | init (h : Handler α) (mws : List (Middleware α))
  | initNamed (name : String) (h : Handler α) (mws : List (Middleware α))
  /-- Registrations under a name prefix. -/
  | group (pre : String) (items : List (Registration α))

namespace Router

variable {α : Type}

/-- A router with the default configuration and nothing registered. -/
def new (entities : Registry α) (events : EventRegistry) : Router α :=
  ⟨RouterConfig.default, entities, events, [], .empty, .empty⟩

/-- A router with a configuration, which must be valid. -/
def withConfig (config : RouterConfig) (entities : Registry α) (events : EventRegistry) :
    Except ConfigError (Router α) := do
  config.validate
  return ⟨config, entities, events, [], .empty, .empty⟩

/-- The table of a phase. -/
def table (r : Router α) : Phase → HandlerTable α
  | .init => r.init
  | .invoke => r.invoke

/-- Changes the table of a phase. -/
def modifyTable (r : Router α) (phase : Phase) (f : HandlerTable α → HandlerTable α) : Router α :=
  match phase with
  | .init => { r with init := f r.init }
  | .invoke => { r with invoke := f r.invoke }

/-- The names a phase serves, sorted, each once. -/
def functions (r : Router α) (phase : Phase) : List String := (r.table phase).names

/-- Adds middleware for handlers registered from now on. -/
def useMiddleware (r : Router α) (mws : List (Middleware α)) : Router α :=
  { r with middleware := r.middleware ++ mws }

/-- A handler composed with the router's current middleware and its own. -/
def chain (r : Router α) (h : Handler α) (own : List (Middleware α)) : Handler α :=
  compose h r.middleware own r.config.strictArgs

/-- Registers a result handler in a phase. -/
def addResult (r : Router α) (phase : Phase) (name : String) (h : Handler α)
    (own : List (Middleware α)) : Router α :=
  let c := r.chain h own
  r.modifyTable phase fun t => { t with result := setEntry name c t.result }

/-- Registers a result handler for ordinary invocations. -/
def invokeWith (r : Router α) (name : String) (h : Handler α) (own : List (Middleware α)) :
    Router α :=
  r.addResult .invoke name h own

/-- Registers a context handler for ordinary invocations. -/
def contextInvoke (r : Router α) (name : String) (h : Call α Unit) (own : List (Middleware α)) :
    Router α :=
  let c := r.chain (do h; pure [] : Call α Bytes) own
  r.modifyTable .invoke fun t => { t with context := setEntry name c t.context }

/-- Registers a stub handler for ordinary invocations. -/
def stubInvoke (r : Router α) (name : String) (h : StubHandler) : Router α :=
  r.modifyTable .invoke fun t => { t with stub := setEntry name h t.stub }

/-- Registers an initialisation handler under a name. -/
def initNamed (r : Router α) (name : String) (h : Handler α) (own : List (Middleware α)) :
    Router α :=
  r.addResult .init name h own

/-- Registers the handler of the configured initialisation function. -/
def initWith (r : Router α) (h : Handler α) (own : List (Middleware α)) : Router α :=
  r.initNamed r.config.initFunction h own

mutual

/-- Applies a registration, names of ordinary invocations under a prefix. -/
def register (r : Router α) (pre : String) : Registration α → Router α
  | .use mws => r.useMiddleware mws
  | .invoke name h mws => r.invokeWith (pre ++ name) h mws
  | .contextInvoke name h mws => r.contextInvoke (pre ++ name) h mws
  | .stubInvoke name h => r.stubInvoke (pre ++ name) h
  | .init h mws => r.initWith h mws
  | .initNamed name h mws => r.initNamed name h mws
  | .group p items => r.registerAll (pre ++ p) items

/-- Applies registrations in order. -/
def registerAll (r : Router α) (pre : String) : List (Registration α) → Router α
  | [] => r
  | item :: rest => (r.register pre item).registerAll pre rest

end

/-- Serves a function in a phase; a failure is returned, not turned into a response. -/
def dispatch (r : Router α) (phase : Phase) (function : String) (args : List Bytes) :
    StateM Stub (Except RouterError Response) := do
  match (r.table phase).lookup function with
  | none => return .error (.methodNotFound function)
  | some (.stub h) => return .ok (← h)
  | some (.chain h) =>
    let ctx := Context.new (← get) r.entities r.events function args
    let (result, ctx) := (h.run).run ctx
    set ctx.stub
    return result.map Response.success

/-- Serves a function in a phase, a failure becoming an error response. -/
def respond (r : Router α) (phase : Phase) (function : String) (args : List Bytes) :
    StateM Stub Response := do
  match ← r.dispatch phase function args with
  | .ok resp => pure resp
  | .error e => pure (Response.error e.message)

/-- Serves the invocation recorded in the stub. -/
def handle (r : Router α) : StateM Stub Response := do
  let s ← get
  r.respond .invoke s.function s.args

/-- Serves the initialisation recorded in the stub; an empty name means the configured
initialisation function. -/
def handleInit (r : Router α) : StateM Stub Response := do
  let s ← get
  r.respond .init (if s.function.isEmpty then r.config.initFunction else s.function) s.args

/-- The debugging form. -/
def debug (r : Router α) : String :=
  "Router \x7b config: " ++ r.config.debug ++ ", middleware: [" ++
    ", ".intercalate (r.middleware.map Middleware.debug) ++ "], init: " ++
    Text.quoteList (r.functions .init) ++ ", invoke: " ++ Text.quoteList (r.functions .invoke) ++
    ", .. \x7d"

end Router

end Chaincode
