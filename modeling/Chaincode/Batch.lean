import Chaincode.State.Basic

/-!
# Command batches

A batch stages state commands and at most one event without touching the ledger. Applying it runs
the commands in order and stops at the first failure, keeping the writes made so far; the staged
event is emitted only after every command succeeded. Staging a second event replaces the first.
-/

namespace Chaincode

/-- What a command does. -/
inductive CommandKind where
  | insert
  | put
  | delete
  deriving DecidableEq, Repr

/-- The lower-case name of a command kind. -/
def CommandKind.label : CommandKind → String
  | .insert => "insert"
  | .put => "put"
  | .delete => "delete"

/-- The debugging name of a command kind. -/
def CommandKind.debug : CommandKind → String
  | .insert => "Insert"
  | .put => "Put"
  | .delete => "Delete"

/-- A staged state command. -/
inductive Command (α : Type) where
  | insert (kind : EntityKind α) (e : α)
  | put (kind : EntityKind α) (e : α)
  | delete (kind : EntityKind α) (id : Key)

namespace Command

variable {α : Type}

/-- What the command does. -/
def kind : Command α → CommandKind
  | .insert _ _ => .insert
  | .put _ _ => .put
  | .delete _ _ => .delete

/-- The short name of the command's entity type. -/
def entity : Command α → String
  | .insert k _ | .put k _ | .delete k _ => k.shortName

/-- Runs the command. -/
def run (reg : Registry α) : Command α → LedgerOp Unit
  | .insert k e => LedgerOp.insert reg k e
  | .put k e => LedgerOp.put reg k e
  | .delete k id => LedgerOp.delete reg k id

/-- The debugging form of the command. -/
def debug (c : Command α) : String :=
  "Command \x7b kind: " ++ c.kind.debug ++ ", entity: " ++ Text.quote c.entity ++ ", .. \x7d"

end Command

/-- A staged event: emitted under its type's registered name, or under an explicit one. -/
inductive StagedEvent where
  | typed (p : Payload)
  | named (name : String) (p : Payload)

namespace StagedEvent

/-- The label of a staged event: the payload type's short name, or the explicit name. -/
def label : StagedEvent → String
  | .typed p => p.shortName
  | .named name _ => name

/-- Emits the event. -/
def emit (events : EventRegistry) : StagedEvent → LedgerOp Unit
  | .typed p => LedgerOp.emit events p
  | .named name p => LedgerOp.emitNamed name p

end StagedEvent

/-- Staged commands and the event to emit when they all succeed. -/
structure Batch (α : Type) where
  commands : List (Command α)
  event : Option StagedEvent

namespace Batch

variable {α : Type}

/-- The batch with nothing staged. -/
def empty : Batch α := ⟨[], none⟩

/-- Stages one more command. -/
def push (b : Batch α) (c : Command α) : Batch α := { b with commands := b.commands ++ [c] }

/-- Stages the event, replacing any staged before. -/
def setEvent (b : Batch α) (ev : StagedEvent) : Batch α := { b with event := some ev }

/-- Runs commands in order, stopping at the first failure. -/
def runAll (reg : Registry α) : List (Command α) → LedgerOp Unit
  | [] => pure ()
  | c :: rest => do
    c.run reg
    runAll reg rest

/-- Runs the commands, then emits the staged event. -/
def apply (reg : Registry α) (events : EventRegistry) (b : Batch α) : LedgerOp Unit := do
  runAll reg b.commands
  match b.event with
  | some ev => ev.emit events
  | none => pure ()

/-- The debugging form of the batch. -/
def debug (b : Batch α) : String :=
  "CommandBatch \x7b commands: [" ++ ", ".intercalate (b.commands.map Command.debug) ++
    "], event: " ++
    (match b.event with
     | some ev => "Some(" ++ Text.quote ev.label ++ ")"
     | none => "None") ++ " \x7d"

end Batch

end Chaincode
