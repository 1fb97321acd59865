import Chaincode.Batch
import Chaincode.Codec.Plain
import Chaincode.Router.Error

/-!
# Invocation contexts

What a handler sees while it serves one invocation: the ledger stub, the registries, the invoked
function's name and raw arguments, the arguments bound so far (each a value of a plain type, by
name, in binding order), and a scratch space that middleware and handlers share.

A `Call` is a step of an invocation: it reads and changes the context and may fail. A handler is
a call that produces the payload.
-/

namespace Chaincode

/-- A bound argument: a plain type and a value of it. -/
structure ArgValue where
  type : Plain
  value : type.Val

/-- A value in the scratch space: a text or a list of texts. -/
inductive ScratchValue where
  | text (s : String)
  | texts (xs : List String)
  deriving DecidableEq, Repr

/-- What a handler sees while it serves an invocation. -/
structure Context (α : Type) where
  stub : Stub
  entities : Registry α
  events : EventRegistry
  function : String
  rawArgs : List Bytes
  /-- Bound arguments in binding order; binding a name again replaces its value in place. -/
  args : List (String × ArgValue)
  scratch : List (String × ScratchValue)

/-- A step of an invocation: it reads and changes the context, and may fail. -/
abbrev Call (α β : Type) := ExceptT RouterError (StateM (Context α)) β

/-- A handler: a step of an invocation that produces the payload. -/
abbrev Handler (α : Type) := Call α Bytes

/-- Replaces the value under a name, or appends the name with its value. -/
def setEntry {β : Type} (name : String) (v : β) : List (String × β) → List (String × β)
  | [] => [(name, v)]
  | (k, w) :: rest => if k = name then (name, v) :: rest else (k, w) :: setEntry name v rest

namespace Context

variable {α : Type}

/-- A fresh context for an invocation. -/
def new (stub : Stub) (entities : Registry α) (events : EventRegistry) (function : String)
    (rawArgs : List Bytes) : Context α :=
  ⟨stub, entities, events, function, rawArgs, [], []⟩

/-- The names of the bound arguments, in binding order. -/
def argNames (c : Context α) : List String := c.args.map (·.1)

/-- The value of a bound argument of a plain type. -/
def argOf (c : Context α) (t : Plain) (name : String) : Except RouterError t.Val :=
  match c.args.lookup name with
  | none => .error (.argsMismatch ("argument " ++ Text.quote name ++ " is not bound"))
  | some v =>
    if h : v.type = t then .ok (cast (congrArg Plain.Val h) v.value)
    else .error (.argsMismatch ("argument " ++ Text.quote name ++ " is not a " ++ t.codec.typeName))

/-- The text in the scratch space under a key, if a text is there. -/
def scratchText? (c : Context α) (key : String) : Option String :=
  match c.scratch.lookup key with
  | some (.text s) => some s
  | _ => none

/-- The list of texts in the scratch space under a key, if a list is there. -/
def scratchTexts? (c : Context α) (key : String) : Option (List String) :=
  match c.scratch.lookup key with
  | some (.texts xs) => some xs
  | _ => none

end Context

namespace Call

variable {α : Type}

/-- The value of a bound argument of a plain type. -/
def arg (t : Plain) (name : String) : Call α t.Val := do
  match (← get).argOf t name with
  | .ok v => pure v
  | .error e => throw e

/-- The value of a bound text argument. -/
def argText (name : String) : Call α String := arg .text name

/-- Binds an argument. -/
def setArg (name : String) (v : ArgValue) : Call α Unit :=
  modify fun c => { c with args := setEntry name v c.args }

/-- Puts a value in the scratch space. -/
def setScratch (key : String) (v : ScratchValue) : Call α Unit :=
  modify fun c => { c with scratch := setEntry key v c.scratch }

/-- The transaction's timestamp. -/
def time : Call α Timestamp := do return (← get).stub.timestamp

/-- Runs a ledger operation on the context's stub; its failure becomes a state failure. -/
def ledger {β : Type} (op : LedgerOp β) : Call α β := do
  let c ← get
  let (r, stub) := (op.run).run c.stub
  set { c with stub := stub }
  match r with
  | .ok v => pure v
  | .error e => throw (.state e)

/-- Applies a command batch with the context's registries. -/
def apply (b : Batch α) : Call α Unit := do
  let c ← get
  ledger (b.apply c.entities c.events)

end Call

end Chaincode
