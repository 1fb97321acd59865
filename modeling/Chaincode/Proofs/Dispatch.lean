import Chaincode.Proofs.State.Exec
import Chaincode.Router.Basic

/-!
# Dispatch over a registration history

A router is built by a history of registrations, some of them inside groups nested to any depth.
Flattened, the history is a list of actions: middleware added to the router, or a handler entered
under its full name, the enclosing groups' prefixes followed by its own name. A handler is
composed with the router's middleware as it stood when the handler was registered.

The route a router gives a name in a phase is read off the history alone: the stub handler
registered last under that name, else the context handler registered last, else the result
handler registered last. Initialisation handlers serve only the initialisation phase, and the
others only ordinary invocations.
-/

namespace Chaincode

variable {α : Type}

/-- What one registration does, groups flattened. -/
inductive Action (α : Type) where
  | use (mws : List (Middleware α))
  | stub (name : String) (h : StubHandler)
  | context (name : String) (h : Call α Unit) (own : List (Middleware α))
  | result (phase : Phase) (name : String) (h : Handler α) (own : List (Middleware α))

/-- The kinds of handlers a table holds, in lookup order. -/
inductive HandlerKind where
  | stub
  | context
  | result
  deriving DecidableEq

namespace Registration

mutual

/-- The actions of a registration under a prefix. -/
def actions (initFunction pre : String) : Registration α → List (Action α)
  | .use mws => [.use mws]
  | .invoke name h mws => [.result .invoke (pre ++ name) h mws]
  | .contextInvoke name h mws => [.context (pre ++ name) h mws]
  | .stubInvoke name h => [.stub (pre ++ name) h]
  | .init h mws => [.result .init initFunction h mws]
  | .initNamed name h mws => [.result .init name h mws]
  | .group p items => actionsAll initFunction (pre ++ p) items

/-- The actions of registrations in order. -/
def actionsAll (initFunction pre : String) : List (Registration α) → List (Action α)
  | [] => []
  | item :: rest => actions initFunction pre item ++ actionsAll initFunction pre rest

end

end Registration

namespace Action

/-- Applies an action to a router. -/
def apply (r : Router α) : Action α → Router α
  | .use mws => r.useMiddleware mws
  | .stub name h => r.stubInvoke name h
  | .context name h own => r.contextInvoke name h own
  | .result phase name h own => r.addResult phase name h own

/-- The middleware an action adds to the router. -/
def added : Action α → List (Middleware α)
  | .use mws => mws
  | _ => []

/-- Each action with the router's middleware as it stood when the action ran: the base followed
by what the actions before it added. -/
def withMiddleware (base : List (Middleware α)) (acts : List (Action α)) :
    List (Action α × List (Middleware α)) :=
  acts.mapIdx fun i a => (a, base ++ (acts.take i).flatMap added)

/-- The route an action enters for a name in a phase and a kind, given the router's middleware
when it ran. -/
def serves (strict : Bool) (phase : Phase) (f : String) (kind : HandlerKind) :
    Action α × List (Middleware α) → Option (Route α)
  | (.use _, _) => none
  | (.stub name h, _) =>
    if kind = .stub ∧ phase = .invoke ∧ name = f then some (.stub h) else none
  | (.context name h own, mws) =>
    if kind = .context ∧ phase = .invoke ∧ name = f then
      some (.chain (compose (do h; pure [] : Call α Bytes) mws own strict))
    else none
  | (.result p name h own, mws) =>
    if kind = .result ∧ phase = p ∧ name = f then some (.chain (compose h mws own strict))
    else none

/-- The route a history gives a name in a phase: the stub handler registered last under it, else
the context handler registered last, else the result handler registered last. -/
def route (strict : Bool) (base : List (Middleware α)) (acts : List (Action α)) (phase : Phase)
    (f : String) : Option (Route α) :=
  let last kind := ((withMiddleware base acts).filterMap (serves strict phase f kind)).getLast?
  (last .stub).or ((last .context).or (last .result))

theorem withMiddleware_cons (base : List (Middleware α)) (a : Action α)
    (acts : List (Action α)) :
    withMiddleware base (a :: acts) = (a, base) :: withMiddleware (base ++ a.added) acts := by
  simp only [withMiddleware, List.mapIdx_cons, List.take_zero, List.flatMap_nil, List.append_nil,
    List.take_succ_cons, List.flatMap_cons, List.append_assoc]

/-- An action changes the router's middleware and tables only. -/
theorem apply_frame (r : Router α) (a : Action α) :
    (a.apply r).config = r.config ∧ (a.apply r).entities = r.entities ∧
      (a.apply r).events = r.events := by
  cases a with
  | use mws => exact ⟨rfl, rfl, rfl⟩
  | stub name h => exact ⟨rfl, rfl, rfl⟩
  | context name h own => exact ⟨rfl, rfl, rfl⟩
  | result phase name h own => cases phase <;> exact ⟨rfl, rfl, rfl⟩

theorem foldl_apply_frame (acts : List (Action α)) (r : Router α) :
    (acts.foldl apply r).config = r.config ∧ (acts.foldl apply r).entities = r.entities ∧
      (acts.foldl apply r).events = r.events := by
  induction acts generalizing r with
  | nil => exact ⟨rfl, rfl, rfl⟩
  | cons a rest ih =>
    obtain ⟨config, entities, events⟩ := apply_frame r a
    obtain ⟨config', entities', events'⟩ := ih (a.apply r)
    exact ⟨config'.trans config, entities'.trans entities, events'.trans events⟩

@[simp] theorem middleware_apply (r : Router α) (a : Action α) :
    (a.apply r).middleware = r.middleware ++ a.added := by
  cases a with
  | use mws => rfl
  | stub name h => simp [apply, added, Router.stubInvoke, Router.modifyTable]
  | context name h own => simp [apply, added, Router.contextInvoke, Router.modifyTable]
  | result phase name h own =>
    cases phase <;> simp [apply, added, Router.addResult, Router.modifyTable]

end Action

theorem lookup_setEntry {β : Type} (name f : String) (v : β) (l : List (String × β)) :
    (setEntry name v l).lookup f = if f = name then some v else l.lookup f := by
  induction l with
  | nil => simp [setEntry, Stub.lookup_cons_eq_ite]
  | cons e rest ih =>
    obtain ⟨k, w⟩ := e
    -- the entry under the name is replaced in place; the others stay
    by_cases same : k = name
    · subst same
      by_cases hit : f = k <;> simp [setEntry, Stub.lookup_cons_eq_ite, hit]
    · by_cases hit : f = k
      · subst hit
        simp [setEntry, same]
      · simp [setEntry, Stub.lookup_cons_eq_ite, same, hit, ih]

namespace HandlerTable

/-- What a table holds for a name in one kind of handler. -/
def find (t : HandlerTable α) (f : String) : HandlerKind → Option (Route α)
  | .stub => (t.stub.lookup f).map .stub
  | .context => (t.context.lookup f).map .chain
  | .result => (t.result.lookup f).map .chain

theorem lookup_eq_find (t : HandlerTable α) (f : String) :
    t.lookup f = (t.find f .stub).or ((t.find f .context).or (t.find f .result)) := by
  unfold lookup find
  cases t.stub.lookup f <;> cases t.context.lookup f <;> rfl

@[simp] theorem find_empty (f : String) (kind : HandlerKind) :
    (empty : HandlerTable α).find f kind = none := by
  cases kind <;> rfl

end HandlerTable

/-- An entry put in front of a lookup, seen through a map. -/
theorem map_ite_eq_or {β γ : Type} (g : β → γ) (c : Prop) [Decidable c] (v : β)
    (o : Option β) :
    (if c then some v else o).map g = (if c then some (g v) else none).or (o.map g) := by
  split <;> rfl

namespace Action

/-- One action enters its route in front of what the table held. -/
theorem find_apply (r : Router α) (a : Action α) (phase : Phase) (f : String)
    (kind : HandlerKind) :
    ((a.apply r).table phase).find f kind =
      (serves r.config.strictArgs phase f kind (a, r.middleware)).or
        ((r.table phase).find f kind) := by
  cases a with
  | use mws => rfl
  | stub name h =>
    cases phase <;> cases kind <;>
      simp [apply, serves, Router.stubInvoke, Router.modifyTable, Router.table,
        HandlerTable.find, lookup_setEntry, map_ite_eq_or, eq_comm]
  | context name h own =>
    cases phase <;> cases kind <;>
      simp [apply, serves, Router.contextInvoke, Router.modifyTable, Router.table,
        HandlerTable.find, lookup_setEntry, map_ite_eq_or, eq_comm, Router.chain]
  | result p name h own =>
    cases p <;> cases phase <;> cases kind <;>
      simp [apply, serves, Router.addResult, Router.modifyTable, Router.table,
        HandlerTable.find, lookup_setEntry, map_ite_eq_or, eq_comm, Router.chain]

/-- After a run of actions a table holds, for each kind, the route of the last action that served
the name, with the router's middleware as it stood then; else what it held before. -/
theorem find_foldl_apply (acts : List (Action α)) (r : Router α) (phase : Phase) (f : String)
    (kind : HandlerKind) :
    ((acts.foldl apply r).table phase).find f kind =
      ((withMiddleware r.middleware acts).filterMap
          (serves r.config.strictArgs phase f kind)).getLast?.or
        ((r.table phase).find f kind) := by
  -- the induction runs from the first action, the router it leaves being the next start
  induction acts generalizing r with
  | nil => rfl
  | cons a rest ih =>
    rw [List.foldl_cons, ih, find_apply, (apply_frame r a).1, middleware_apply,
      withMiddleware_cons, List.filterMap_cons]
    cases serves r.config.strictArgs phase f kind (a, r.middleware) with
    | none => rfl
    | some entered =>
      rw [List.getLast?_cons]
      cases ((withMiddleware (r.middleware ++ a.added) rest).filterMap
        (serves r.config.strictArgs phase f kind)).getLast? <;> rfl

end Action

namespace Router

mutual

/-- Registering is running the registration's actions. -/
theorem register_eq_foldl (r : Router α) (pre : String) : (item : Registration α) →
    r.register pre item =
      (Registration.actions r.config.initFunction pre item).foldl Action.apply r
  | .use _ => rfl
  | .invoke _ _ _ => rfl
  | .contextInvoke _ _ _ => rfl
  | .stubInvoke _ _ => rfl
  | .init _ _ => rfl
  | .initNamed _ _ _ => rfl
  | .group p items => by
    rw [register, Registration.actions]
    exact registerAll_eq_foldl r (pre ++ p) items

theorem registerAll_eq_foldl (r : Router α) (pre : String) : (items : List (Registration α)) →
    r.registerAll pre items =
      (Registration.actionsAll r.config.initFunction pre items).foldl Action.apply r
  | [] => rfl
  | item :: rest => by
    -- the first registration leaves the configuration, and so the initialisation name, as it was
    have first := register_eq_foldl r pre item
    rw [registerAll, registerAll_eq_foldl, first, (Action.foldl_apply_frame _ r).1,
      Registration.actionsAll, List.foldl_append]

end

/-- A router as `new` or `withConfig` returns it has no middleware and no handlers. -/
theorem fresh_of_built {config : RouterConfig} {entities : Registry α} {events : EventRegistry}
    {r : Router α}
    (built : withConfig config entities events = .ok r ∨ r = Router.new entities events) :
    r.middleware = [] ∧ (∀ phase, r.table phase = .empty) ∧ r.entities = entities ∧
      r.events = events := by
  rcases built with made | rfl
  · unfold withConfig at made
    cases valid : config.validate with
    | error e => rw [valid] at made; cases made
    | ok u =>
      rw [valid] at made
      cases made
      exact ⟨rfl, fun phase => by cases phase <;> rfl, rfl, rfl⟩
  · exact ⟨rfl, fun phase => by cases phase <;> rfl, rfl, rfl⟩

/-- What dispatch does with the route its table gives: no route is `method not found` with the
ledger untouched; a stub handler answers from the ledger; a chain runs in a fresh context whose
ledger is kept. -/
theorem dispatch_run (r : Router α) (phase : Phase) (f : String) (args : List Bytes) (s : Stub) :
    (r.dispatch phase f args).run s =
      match (r.table phase).lookup f with
      | none => (.error (.methodNotFound f), s)
      | some (.stub h) => (.ok (h.run s).1, (h.run s).2)
      | some (.chain h) =>
        ((h.run.run (Context.new s r.entities r.events f args)).1.map Response.success,
          (h.run.run (Context.new s r.entities r.events f args)).2.stub) := by
  unfold dispatch
  cases (r.table phase).lookup f with
  | none => rfl
  | some route => cases route <;> rfl

/-- The table a registration history leaves in a fresh router gives each name the route the
history gives it. -/
theorem lookup_registerAll_of_fresh (r : Router α) (noMiddleware : r.middleware = [])
    (noHandlers : ∀ phase, r.table phase = .empty) (items : List (Registration α))
    (phase : Phase) (f : String) :
    ((r.registerAll "" items).table phase).lookup f =
      Action.route r.config.strictArgs []
        (Registration.actionsAll r.config.initFunction "" items) phase f := by
  rw [registerAll_eq_foldl, HandlerTable.lookup_eq_find]
  simp only [Action.find_foldl_apply, noMiddleware, noHandlers, HandlerTable.find_empty,
    Option.or_none]
  rfl

/-- Registering changes the tables and the middleware only. -/
theorem registerAll_frame (r : Router α) (pre : String) (items : List (Registration α)) :
    (r.registerAll pre items).config = r.config ∧ (r.registerAll pre items).entities = r.entities ∧
      (r.registerAll pre items).events = r.events := by
  rw [registerAll_eq_foldl]
  exact Action.foldl_apply_frame _ r

end Router

/-- Dispatch over any registration history, from a router as `new` or `withConfig` returns it:
each name is served by the stub handler registered last under it, else the context handler
registered last, else the result handler registered last, each composed with the router's
middleware as it stood at its registration; a name with no handler is `method not found` and the
ledger stays as it was; an initialisation with an empty function name serves the configured
initialisation function. -/
theorem dispatch_follows_registration_history {config : RouterConfig} {entities : Registry α}
    {events : EventRegistry} {r : Router α}
    (built : Router.withConfig config entities events = .ok r ∨ r = Router.new entities events)
    (items : List (Registration α)) (phase : Phase) (f : String) (args : List Bytes)
    (s : Stub) :
    let served := r.registerAll "" items
    let route := Action.route r.config.strictArgs []
      (Registration.actionsAll r.config.initFunction "" items) phase f
    ((served.table phase).lookup f = route) ∧
    (route = none → (served.dispatch phase f args).run s = (.error (.methodNotFound f), s)) ∧
    (∀ h, route = some (.stub h) →
      (served.dispatch phase f args).run s = (.ok (h.run s).1, (h.run s).2)) ∧
    (∀ h, route = some (.chain h) →
      let outcome := h.run.run (Context.new s entities events f args)
      (served.dispatch phase f args).run s = (outcome.1.map Response.success, outcome.2.stub)) ∧
    (served.handleInit).run s =
      (served.respond .init (if s.function.isEmpty then r.config.initFunction else s.function)
        s.args).run s := by
  intro served route
  obtain ⟨noMiddleware, noHandlers, sameEntities, sameEvents⟩ := Router.fresh_of_built built
  have found : (served.table phase).lookup f = route :=
    Router.lookup_registerAll_of_fresh r noMiddleware noHandlers items phase f
  obtain ⟨keptConfig, keptEntities, keptEvents⟩ := Router.registerAll_frame r "" items
  refine ⟨found, ?_, ?_, ?_, ?_⟩
  · intro none
    rw [Router.dispatch_run, found, none]
  · intro h stub
    rw [Router.dispatch_run, found, stub]
  · intro h chain
    rw [Router.dispatch_run, found, chain, keptEntities, keptEvents, sameEntities, sameEvents]
  · rw [← keptConfig]
    rfl

/-- Answers with the bound `id`. -/
def echoId : Handler Unit := (do
  let id ← Call.argText "id"
  pure (Bytes.ofString id) : Call Unit Bytes)

/-- A user directory: `get` at the top level, registered twice; a group `org/` that adds logging
and, nested in it, a group `user/` whose `get` binds an `id`; a stub handler for `ping`; an
initialisation handler. -/
def orgRegistrations : List (Registration Unit) :=
  [.invoke "get" (pure (Bytes.ofString "v1") : Call Unit Bytes) [],
   .group "org/" [.use [Middleware.logging],
     .group "user/" [.invoke "get" echoId [.param "id" .text]]],
   .invoke "get" (pure (Bytes.ofString "v2") : Call Unit Bytes) [],
   .stubInvoke "ping" (pure (Response.success (Bytes.ofString "pong"))),
   .init (pure [] : Call Unit Bytes) []]

/-- In the user directory, `org/user/get` runs the reader behind the logging its enclosing group
added before it, and the initialisation phase does not serve `ping`. -/
theorem orgRegistrations_served :
    let r : Router Unit := Router.new Registry.empty EventRegistry.empty
    (Router.withConfig RouterConfig.default Registry.empty EventRegistry.empty = .ok r ∨
      r = Router.new Registry.empty EventRegistry.empty) ∧
    ((r.registerAll "" orgRegistrations).table .invoke).lookup "org/user/get" =
      some (.chain (compose echoId [Middleware.logging] [.param "id" .text] false)) ∧
    ((r.registerAll "" orgRegistrations).dispatch .init "ping" []).run Stub.empty =
      (.error (.methodNotFound "ping"), Stub.empty) := by
  intro r
  have built : Router.withConfig RouterConfig.default Registry.empty EventRegistry.empty = .ok r ∨
      r = Router.new Registry.empty EventRegistry.empty := Or.inr rfl
  exact ⟨built,
    (dispatch_follows_registration_history built orgRegistrations .invoke "org/user/get" []
      Stub.empty).1.trans rfl,
    (dispatch_follows_registration_history built orgRegistrations .init "ping" [] Stub.empty).2.1
      rfl⟩

end Chaincode
