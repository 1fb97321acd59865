import Chaincode.Router.Context

/-!
# Middleware

A middleware is either a wrapper, which turns the next link of a chain into a new link, or a
parameter, which decodes the raw argument at its position as a plain type and binds it under
its name before the next link runs.

`compose` builds a handler's chain from the router's middleware (as it stood when the handler was
registered), the handler's own middleware and the strict-arity flag. It walks each list from its
last entry to its first and wraps the chain so far, so the chain reads, from the outside in:

1. the router's middleware in registration order, its `i`-th parameter bound from position `i`;
2. the handler's parameters in declared order, at the positions after the router's;
3. when arity is strict, the refusal of more raw arguments than parameters;
4. the handler's other middleware in declared order;
5. the handler.
-/

namespace Chaincode

/-- A link of a handler's chain. -/
inductive Middleware (α : Type) where
  /-- Turns the next link into a new one. -/
  | wrap (f : Handler α → Handler α)
  /-- Binds the raw argument at its position, decoded as a plain type, under a name. -/
  | param (name : String) (type : Plain)

namespace Middleware

variable {α : Type}

/-- Whether the middleware binds a parameter. -/
def isParam : Middleware α → Bool
  | .param _ _ => true
  | .wrap _ => false

/-- The debugging form. -/
def debug : Middleware α → String
  | .wrap _ => "Middleware::Wrap"
  | .param name _ => "Middleware::Param(" ++ name ++ ")"

/-- Decodes the raw argument at a position and binds it. -/
def bind (name : String) (t : Plain) (position : Nat) : Call α Unit := do
  let c ← get
  match c.rawArgs[position]? with
  | none =>
    throw (.argsMismatch ("parameter " ++ Text.quote name ++ " expects argument " ++
      toString position ++ ", got " ++ toString c.rawArgs.length ++ " arguments"))
  | some raw =>
    match t.codec.decode raw with
    | .ok v => Call.setArg name ⟨t, v⟩
    | .error e => throw (.conversion e)

/-- Puts the middleware in front of the next link; a parameter binds from `position`. -/
def apply (mw : Middleware α) (next : Handler α) (position : Nat) : Handler α :=
  match mw with
  | .wrap f => f next
  | .param name t => (do bind name t position; next : Call α Bytes)

/-- A wrapper that runs a check before the next link and stops if it fails. -/
def before (check : Call α Unit) : Middleware α :=
  .wrap fun next => (do check; next : Call α Bytes)

/-- A wrapper that reports invocations; the result passes through unchanged. -/
def logging : Middleware α := .wrap id

end Middleware

/-- Refuses more raw arguments than expected before running the next link. -/
def exactArity {α : Type} (expected : Nat) (next : Handler α) : Call α Bytes := do
  let supplied := (← get).rawArgs.length
  if supplied > expected then
    throw (.argsMismatch ("expected " ++ toString expected ++ " arguments, got " ++
      toString supplied))
  next

/-- One step of the walk over the router's middleware from its last entry back to its first: the
position drops by one before a parameter binds from it. -/
def wrapRouterStep {α : Type} (acc : Handler α × Nat) (mw : Middleware α) : Handler α × Nat :=
  let position := if mw.isParam then acc.2 - 1 else acc.2
  (mw.apply acc.1 position, position)

/-- A handler's chain, built from the inside out: the handler's other middleware from the last to
the first, then the arity check when strict, then the handler's parameters from the last to the
first, the `i`-th bound from the router's parameter count plus `i`, then the router's middleware
from the last to the first, the position counted down from the router's parameter count. -/
def compose {α : Type} (handler : Handler α) (router own : List (Middleware α)) (strict : Bool) :
    Handler α :=
  let params := own.filter Middleware.isParam
  let others := own.filter fun mw => !mw.isParam
  let routerParams := (router.filter Middleware.isParam).length
  let chain := others.reverse.foldl (fun chain mw => mw.apply chain 0) handler
  let chain := if strict then exactArity (routerParams + params.length) chain else chain
  let chain := params.zipIdx.reverse.foldl
    (fun chain (entry : Middleware α × Nat) => entry.1.apply chain (routerParams + entry.2)) chain
  (router.reverse.foldl wrapRouterStep (chain, routerParams)).1

end Chaincode
