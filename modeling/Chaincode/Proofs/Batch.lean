import Chaincode.Batch
import Chaincode.Proofs.State.Writes

/-!
# Applying a batch

A batch is built by staging calls, from the empty batch (`Batch.build`): each command is appended,
and each event replaces the one staged before. Building is a computation on values and makes no
call on the ledger.

Applying the batch is a fold over its commands that stops at the first failure
(`Batch.runStep`): each command runs `insert`, `put` or `delete` on the ledger the commands before
it left. A failing command's error is the answer, the ledger is the one it left, and neither a
later command nor the event runs. When every command succeeds the staged event, if any, is
emitted, and its emission is the answer: under the name registered for its payload type, failing
with the type's short name and no change when the type is not registered, or under its explicit
name. Commands change only the entries of the ledger (`LedgerOp.EntriesOnly`), so applying a
batch appends at most one event, and none when it fails.
-/

namespace Chaincode

variable {α β : Type}

/-! ## Operations that change only the entries -/

namespace Stub

/-- Erasing changes only the entries, as its writes do. -/
theorem eraseThen_snd (s : Stub) (keys : List Key) (malformed : Option StateError) :
    (s.eraseThen keys malformed).2 =
      (s.applyWrites (keys.map fun k => (k.toComposite, none))).2 := by
  unfold eraseThen
  cases made : liftFault (s.applyWrites (keys.map fun k => (k.toComposite, none))) with
  | mk result s' =>
    have left : (s.applyWrites (keys.map fun k => (k.toComposite, none))).2 = s' :=
      congrArg Prod.snd made
    rw [left]
    cases result with
    | ok u => rfl
    | error f => rfl

end Stub

namespace LedgerOp

/-- An operation that changes nothing of the stub but its entries: neither the transaction's
events nor the prefixes under which writes are refused. -/
def EntriesOnly (x : LedgerOp β) : Prop :=
  ∀ s : Stub, ∃ entries, (x.exec s).2 = { s with entries := entries }

theorem EntriesOnly.events_eq {x : LedgerOp β} (only : EntriesOnly x) (s : Stub) :
    (x.exec s).2.events = s.events := by
  obtain ⟨entries, ran⟩ := only s
  rw [ran]

theorem entriesOnly_write (kind : EntityKind α) (e : α) (key : Key) (indexes : List Key) :
    EntriesOnly (write kind e key indexes) := by
  intro s
  rw [exec_write_eq_applyWrites]
  exact ⟨_, rfl⟩

theorem entriesOnly_insert (reg : Registry α) (kind : EntityKind α) (e : α) :
    EntriesOnly (insert reg kind e) := by
  intro s
  rw [exec_insert_eq_plan]
  cases insertPlan reg kind e s with
  | error err => exact ⟨s.entries, rfl⟩
  | ok plan => exact entriesOnly_write kind e plan.1 plan.2 s

theorem entriesOnly_put (reg : Registry α) (kind : EntityKind α) (e : α) :
    EntriesOnly (put reg kind e) := by
  intro s
  rw [exec_put_eq_plan]
  cases putPlan reg kind e s with
  | error err => exact ⟨s.entries, rfl⟩
  | ok plan => exact entriesOnly_write kind e plan.1 plan.2 s

theorem entriesOnly_delete (reg : Registry α) (kind : EntityKind α) (id : Key) :
    EntriesOnly (delete reg kind id) := by
  intro s
  rw [exec_delete_eq]
  cases deletePlan reg kind id s with
  | error err => exact ⟨s.entries, rfl⟩
  | ok plan =>
    rw [Stub.eraseThen_snd]
    exact ⟨_, rfl⟩

end LedgerOp

theorem Command.entriesOnly_run (reg : Registry α) : (c : Command α) → (c.run reg).EntriesOnly
  | .insert kind e => LedgerOp.entriesOnly_insert reg kind e
  | .put kind e => LedgerOp.entriesOnly_put reg kind e
  | .delete kind id => LedgerOp.entriesOnly_delete reg kind id

/-! ## Emitting the staged event -/

@[simp] theorem Payload.bytes_of {β : Type} (c : Codec β) (x : β) :
    (Payload.of c x).bytes = c.encode x := rfl

namespace StagedEvent

theorem exec_emit_typed (events : EventRegistry) (p : Payload) (s : Stub) :
    ((typed p).emit events).exec s =
      match events.nameOf p.typeName with
      | some name => (.ok (), s.emit name p.bytes)
      | none => (.error (.eventTypeNotRegistered p.shortName), s) := by
  show (LedgerOp.emit events p).exec s = _
  unfold LedgerOp.emit
  cases events.nameOf p.typeName with
  | some name => rfl
  | none => rfl

theorem exec_emit_named (events : EventRegistry) (name : String) (p : Payload) (s : Stub) :
    ((named name p).emit events).exec s = (.ok (), s.emit name p.bytes) := rfl

/-- An emission appends at most one event, and none when it fails. -/
theorem emit_appends_at_most_one (events : EventRegistry) (ev : StagedEvent) (s : Stub) :
    ∃ extra, ((ev.emit events).exec s).2.events = s.events ++ extra ∧ extra.length ≤ 1 ∧
      ∀ err, ((ev.emit events).exec s).1 = .error err → extra = [] := by
  cases ev with
  | typed p =>
    rw [exec_emit_typed]
    cases events.nameOf p.typeName with
    | some name => exact ⟨[⟨name, p.bytes⟩], rfl, by simp, fun err failed => by cases failed⟩
    | none => exact ⟨[], by simp, by simp, fun _ _ => rfl⟩
  | named name p =>
    rw [exec_emit_named]
    exact ⟨[⟨name, p.bytes⟩], rfl, by simp, fun err failed => by cases failed⟩

end StagedEvent

/-! ## Building a batch -/

/-- A call that stages into a batch: a command (staging an `insert`, a `put` or a `delete`
stages its command), or the event, under its payload type's registered name or an explicit
one. -/
inductive Staging (α : Type) where
  | command (c : Command α)
  | event (ev : StagedEvent)

namespace Staging

/-- Makes the call on a batch. -/
def stage (b : Batch α) : Staging α → Batch α
  | .command c => b.push c
  | .event ev => b.setEvent ev

/-- The command the call stages, if it stages one. -/
def command? : Staging α → Option (Command α)
  | .command c => some c
  | .event _ => none

/-- The event the call stages, if it stages one. -/
def event? : Staging α → Option StagedEvent
  | .command _ => none
  | .event ev => some ev

end Staging

namespace Batch

/-- The batch the calls build from the empty batch. -/
def build (calls : List (Staging α)) : Batch α := calls.foldl Staging.stage empty

/-- Staging appends the commands in call order and keeps the last event staged. -/
theorem foldl_stage (calls : List (Staging α)) (b : Batch α) :
    (calls.foldl Staging.stage b).commands = b.commands ++ calls.filterMap Staging.command? ∧
      (calls.foldl Staging.stage b).event =
        ((calls.filterMap Staging.event?).getLast?).or b.event := by
  -- induction from the front, over any batch staged so far
  induction calls generalizing b with
  | nil => simp
  | cons call rest ih =>
    obtain ⟨commands, event⟩ := ih (Staging.stage b call)
    rw [List.foldl_cons, commands, event]
    cases call with
    | command c =>
      simp [Staging.stage, Staging.command?, Staging.event?, push]
    | event ev =>
      simp only [Staging.stage, setEvent, Staging.command?, Staging.event?, List.filterMap_cons,
        true_and]
      cases last : (rest.filterMap Staging.event?).getLast? with
      | some ev' =>
        rw [List.getLast?_cons, last]
        rfl
      | none =>
        rw [List.getLast?_eq_none_iff.mp last]
        rfl

theorem build_commands (calls : List (Staging α)) :
    (build calls).commands = calls.filterMap Staging.command? := by
  exact (foldl_stage calls empty).1.trans (List.nil_append _)

theorem build_event (calls : List (Staging α)) :
    (build calls).event = (calls.filterMap Staging.event?).getLast? := by
  exact (foldl_stage calls empty).2.trans Option.or_none

/-! ## Running the commands -/

/-- One step of the fold: the next command runs on the ledger the earlier ones left, unless one
of them failed. -/
def runStep (reg : Registry α) (acc : Except StateError Unit × Stub) (c : Command α) :
    Except StateError Unit × Stub :=
  match acc with
  | (.ok (), s) => (c.run reg).exec s
  | failed => failed

theorem foldl_runStep_error (reg : Registry α) (commands : List (Command α)) (err : StateError)
    (s : Stub) : commands.foldl (runStep reg) (.error err, s) = (.error err, s) := by
  induction commands with
  | nil => rfl
  | cons c rest ih => exact ih

theorem exec_runAll_cons (reg : Registry α) (c : Command α) (rest : List (Command α)) (s : Stub) :
    (runAll reg (c :: rest)).exec s =
      match (c.run reg).exec s with
      | (.ok (), s') => (runAll reg rest).exec s'
      | (.error err, s') => (.error err, s') := by
  rw [runAll, LedgerOp.exec_bind]
  cases (c.run reg).exec s with
  | mk result s' => cases result <;> rfl

/-- The commands run as a fold that stops at the first failure. -/
theorem exec_runAll_eq_foldl (reg : Registry α) (commands : List (Command α)) (s : Stub) :
    (runAll reg commands).exec s = commands.foldl (runStep reg) (.ok (), s) := by
  induction commands generalizing s with
  | nil => rfl
  | cons c rest ih =>
    rw [exec_runAll_cons, List.foldl_cons]
    show _ = rest.foldl (runStep reg) ((c.run reg).exec s)
    cases (c.run reg).exec s with
    | mk result s' =>
      cases result with
      | ok u => exact ih s'
      | error err => exact (foldl_runStep_error reg rest err s').symm

theorem exec_runAll_append (reg : Registry α) (before after : List (Command α)) (s : Stub) :
    (runAll reg (before ++ after)).exec s =
      match (runAll reg before).exec s with
      | (.ok (), s') => (runAll reg after).exec s'
      | (.error err, s') => (.error err, s') := by
  rw [exec_runAll_eq_foldl, exec_runAll_eq_foldl, List.foldl_append]
  cases before.foldl (runStep reg) (.ok (), s) with
  | mk result s' =>
    cases result with
    | ok u => exact (exec_runAll_eq_foldl reg after s').symm
    | error err => exact foldl_runStep_error reg after err s'

/-- Every run of the commands succeeds or stops at a first failing command. -/
theorem runAll_succeeds_or_stops (reg : Registry α) (commands : List (Command α)) (s : Stub) :
    (∃ s₁, (runAll reg commands).exec s = (.ok (), s₁)) ∨
      ∃ before c after s₁ err s₂, commands = before ++ c :: after ∧
        (runAll reg before).exec s = (.ok (), s₁) ∧ (c.run reg).exec s₁ = (.error err, s₂) := by
  induction commands generalizing s with
  | nil => exact .inl ⟨s, rfl⟩
  | cons c rest ih =>
    rw [exec_runAll_cons]
    cases ran : (c.run reg).exec s with
    | mk result s' =>
      cases result with
      | error err => exact .inr ⟨[], c, rest, s, err, s', rfl, rfl, ran⟩
      | ok u =>
        rcases ih s' with done | ⟨before, c', after, s₁, err, s₂, split, prefixOk, failed⟩
        · exact .inl done
        · refine .inr ⟨c :: before, c', after, s₁, err, s₂, by rw [split]; rfl, ?_, failed⟩
          rw [exec_runAll_cons, ran]
          exact prefixOk

/-- The first failing command's error is the answer, on the ledger it left. -/
theorem exec_runAll_of_first_failure {reg : Registry α} {before after : List (Command α)}
    {c : Command α} {s s₁ s₂ : Stub} {err : StateError}
    (prefixOk : (runAll reg before).exec s = (.ok (), s₁))
    (failed : (c.run reg).exec s₁ = (.error err, s₂)) :
    (runAll reg (before ++ c :: after)).exec s = (.error err, s₂) := by
  rw [exec_runAll_append, prefixOk]
  show (runAll reg (c :: after)).exec s₁ = _
  rw [exec_runAll_cons, failed]

/-- The commands change only the entries. -/
theorem entriesOnly_runAll (reg : Registry α) (commands : List (Command α)) :
    (runAll reg commands).EntriesOnly := by
  induction commands with
  | nil => exact fun s => ⟨s.entries, rfl⟩
  | cons c rest ih =>
    intro s
    rw [exec_runAll_cons]
    obtain ⟨entries, ran⟩ := c.entriesOnly_run reg s
    cases made : (c.run reg).exec s with
    | mk result s' =>
      rw [made] at ran
      subst ran
      cases result with
      | error err => exact ⟨entries, rfl⟩
      | ok u =>
        obtain ⟨entries', rest_ran⟩ := ih { s with entries := entries }
        exact ⟨entries', rest_ran⟩

/-! ## Applying a batch -/

theorem exec_apply (reg : Registry α) (events : EventRegistry) (b : Batch α) (s : Stub) :
    (b.apply reg events).exec s =
      match (runAll reg b.commands).exec s with
      | (.ok (), s₁) =>
        match b.event with
        | some ev => (ev.emit events).exec s₁
        | none => (.ok (), s₁)
      | (.error err, s₁) => (.error err, s₁) := by
  rw [apply, LedgerOp.exec_bind]
  cases (runAll reg b.commands).exec s with
  | mk result s₁ =>
    cases result with
    | error err => rfl
    | ok u =>
      cases b.event with
      | some ev => rfl
      | none => rfl

/-- A batch of one command and an event runs the command, then emits the event if the command
went through. -/
theorem exec_apply_single (reg : Registry α) (events : EventRegistry) (c : Command α)
    (ev : StagedEvent) (s : Stub) :
    (((empty.push c).setEvent ev).apply reg events).exec s =
      match (c.run reg).exec s with
      | (.ok (), s') => (ev.emit events).exec s'
      | (.error err, s') => (.error err, s') := by
  rw [exec_apply]
  show (match (runAll reg [c]).exec s with
    | (.ok (), s₁) => (ev.emit events).exec s₁
    | (.error err, s₁) => (.error err, s₁)) = _
  rw [exec_runAll_cons]
  cases (c.run reg).exec s with
  | mk result s' => cases result <;> rfl

theorem exec_apply_single_of_error {reg : Registry α} {events : EventRegistry} {c : Command α}
    {ev : StagedEvent} {s s' : Stub} {err : StateError}
    (ran : (c.run reg).exec s = (.error err, s')) :
    (((empty.push c).setEvent ev).apply reg events).exec s = (.error err, s') := by
  rw [exec_apply_single, ran]

/-- A batch of one command that goes through and an event of a registered type emits the event
under its registered name after the command. -/
theorem exec_apply_single_typed {reg : Registry α} {events : EventRegistry} {c : Command α}
    {p : Payload} {name : String} (named : events.nameOf p.typeName = some name) {s s' : Stub}
    (ran : (c.run reg).exec s = (.ok (), s')) :
    (((empty.push c).setEvent (.typed p)).apply reg events).exec s =
      (.ok (), s'.emit name p.bytes) := by
  rw [exec_apply_single, ran]
  dsimp only
  rw [StagedEvent.exec_emit_typed, named]

/-- Applying a batch appends at most one event to the transaction, and none when it fails. -/
theorem apply_appends_at_most_one (reg : Registry α) (events : EventRegistry) (b : Batch α)
    (s : Stub) :
    ∃ extra, ((b.apply reg events).exec s).2.events = s.events ++ extra ∧ extra.length ≤ 1 ∧
      ∀ err, ((b.apply reg events).exec s).1 = .error err → extra = [] := by
  have kept := (entriesOnly_runAll reg b.commands).events_eq s
  rw [exec_apply]
  cases ran : (runAll reg b.commands).exec s with
  | mk result s₁ =>
    rw [ran] at kept
    cases result with
    | error err => exact ⟨[], by simpa using kept, by simp, fun _ _ => rfl⟩
    | ok u =>
      cases b.event with
      | none => exact ⟨[], by simpa using kept, by simp, fun _ failed => by cases failed⟩
      | some ev =>
        obtain ⟨extra, appended, atMostOne, noneOnFailure⟩ := ev.emit_appends_at_most_one events s₁
        exact ⟨extra, by rw [appended, kept], atMostOne, noneOnFailure⟩

/-- A failing command ends the batch when the commands before it succeed: its error is the answer,
on the ledger it left, and that ledger still holds the transaction's events. -/
theorem exec_apply_of_first_failure {reg : Registry α} {events : EventRegistry} {b : Batch α}
    {before after : List (Command α)} {c : Command α} {s s₁ s₂ : Stub} {err : StateError}
    (split : b.commands = before ++ c :: after)
    (prefixOk : (runAll reg before).exec s = (.ok (), s₁))
    (failed : (c.run reg).exec s₁ = (.error err, s₂)) :
    (b.apply reg events).exec s = (.error err, s₂) ∧ s₂.events = s.events := by
  have kept := (entriesOnly_runAll reg b.commands).events_eq s
  have stopped : (runAll reg b.commands).exec s = (.error err, s₂) := by
    rw [split]
    exact exec_runAll_of_first_failure prefixOk failed
  rw [stopped] at kept
  exact ⟨by rw [exec_apply, stopped], kept⟩

/-- When every command succeeds, the transaction's events are as they were and the staged event's
emission is the answer. -/
theorem exec_apply_of_commands_done {reg : Registry α} {events : EventRegistry} {b : Batch α}
    {s s₁ : Stub} (done : (runAll reg b.commands).exec s = (.ok (), s₁)) :
    s₁.events = s.events ∧
      (b.apply reg events).exec s =
        match b.event with
        | none => (.ok (), s₁)
        | some (.typed p) =>
          match events.nameOf p.typeName with
          | some name => (.ok (), s₁.emit name p.bytes)
          | none => (.error (.eventTypeNotRegistered p.shortName), s₁)
        | some (.named name p) => (.ok (), s₁.emit name p.bytes) := by
  have kept := (entriesOnly_runAll reg b.commands).events_eq s
  rw [done] at kept
  refine ⟨kept, ?_⟩
  rw [exec_apply, done]
  cases b.event with
  | none => rfl
  | some ev =>
    cases ev with
    | typed p => exact StagedEvent.exec_emit_typed events p s₁
    | named name p => exact StagedEvent.exec_emit_named events name p s₁

/-- Applying a batch built by any staging calls, on any ledger. The batch holds the staged
commands in call order and the last event staged. Its commands run as a fold that stops at the
first failure: every run either runs them all or stops at a first failing command, whose error is
the answer on the ledger that command left, with no later command run and no event emitted. When
all succeed, leaving the transaction's events as they were, the staged event is emitted, under
its type's registered name (failing with the type's short name and no change when there is none)
or its explicit name, and the emission is the answer. So applying a batch appends at most one
event, and none when it fails. -/
theorem batch_applies_as_fold (reg : Registry α) (events : EventRegistry)
    (calls : List (Staging α)) (s : Stub) :
    let b := build calls
    b.commands = calls.filterMap Staging.command? ∧
    b.event = (calls.filterMap Staging.event?).getLast? ∧
    (runAll reg b.commands).exec s = b.commands.foldl (runStep reg) (.ok (), s) ∧
    ((∃ s₁, (runAll reg b.commands).exec s = (.ok (), s₁)) ∨
      ∃ before c after s₁ err s₂, b.commands = before ++ c :: after ∧
        (runAll reg before).exec s = (.ok (), s₁) ∧ (c.run reg).exec s₁ = (.error err, s₂)) ∧
    (∀ before c after s₁ err s₂, b.commands = before ++ c :: after →
      (runAll reg before).exec s = (.ok (), s₁) → (c.run reg).exec s₁ = (.error err, s₂) →
      (b.apply reg events).exec s = (.error err, s₂) ∧ s₂.events = s.events) ∧
    (∀ s₁, (runAll reg b.commands).exec s = (.ok (), s₁) →
      s₁.events = s.events ∧
      (b.apply reg events).exec s =
        match b.event with
        | none => (.ok (), s₁)
        | some (.typed p) =>
          match events.nameOf p.typeName with
          | some name => (.ok (), s₁.emit name p.bytes)
          | none => (.error (.eventTypeNotRegistered p.shortName), s₁)
        | some (.named name p) => (.ok (), s₁.emit name p.bytes)) ∧
    ∃ extra, ((b.apply reg events).exec s).2.events = s.events ++ extra ∧ extra.length ≤ 1 ∧
      ∀ err, ((b.apply reg events).exec s).1 = .error err → extra = [] := by
  intro b
  exact ⟨build_commands calls, build_event calls, exec_runAll_eq_foldl reg b.commands s,
    runAll_succeeds_or_stops reg b.commands s,
    fun _ _ _ _ _ _ split prefixOk failed => exec_apply_of_first_failure split prefixOk failed,
    fun _ done => exec_apply_of_commands_done done, apply_appends_at_most_one reg events b s⟩

/-- Staging the user `ada` twice, then an event. -/
def adaTwice : List (Staging String) :=
  [.command (.insert userMapping.kind "ada"), .command (.insert userMapping.kind "ada"),
    .event (.named "usersAdded" ⟨"String", Bytes.ofString "ada"⟩)]

/-- On the empty ledger the second insert fails: its error is the answer and no event is
emitted. -/
theorem adaTwice_stops_at_second_insert :
    ∃ s₂, ((build adaTwice).apply ⟨[userMapping], []⟩ EventRegistry.empty).exec Stub.empty =
      (.error (.keyAlreadyExists ⟨["users", "ada"]⟩), s₂) ∧ s₂.events = [] := by
  obtain ⟨-, -, -, -, firstFailure, -⟩ :=
    batch_applies_as_fold ⟨[userMapping], []⟩ EventRegistry.empty adaTwice Stub.empty
  exact ⟨_, firstFailure [.insert userMapping.kind "ada"] (.insert userMapping.kind "ada") [] _ _ _
    rfl rfl rfl⟩

end Batch

end Chaincode
