import Chaincode.Router.Basic
import Chaincode.Proofs.State.Refinement
import Chaincode.Proofs.Middleware
import Chaincode.Proofs.Dispatch

/-!
# How an invocation changes the ledger

A call reads and changes its context; of the context only the stub outlives the invocation, and
of the stub only the entries and the refused prefixes outlive the transaction. Two stubs that
agree on those hold the same ledger (`Stub.SameLedger`).

Most steps of a call leave the stub and the registries exactly as they are (`Call.Frames`):
binding a parameter, reading an argument or the time, reading the ledger, checking, answering,
failing. Emitting an event changes only the transaction's events (`Call.KeepsLedger`). A handler
that writes does so with one state operation (`Call.WritesOnce`): the ledger it leaves is the one
it found, or the one that operation leaves on it. Links that bind parameters or log keep all
this, so a chain writes as its handler does, and so does a router that dispatches to it.
-/

namespace Chaincode

variable {α β γ : Type}

/-! ## Ledgers -/

namespace Stub

/-- Two stubs hold the same ledger: the same entries, with writes refused under the same
prefixes. The transaction's events, function, arguments and timestamp may differ. -/
def SameLedger (s t : Stub) : Prop := t.entries = s.entries ∧ t.failing = s.failing

theorem SameLedger.refl (s : Stub) : s.SameLedger s := ⟨rfl, rfl⟩

theorem SameLedger.of_eq {s t : Stub} (same : t = s) : s.SameLedger t := same ▸ .refl s

theorem SameLedger.trans {s t u : Stub} (first : s.SameLedger t) (second : t.SameLedger u) :
    s.SameLedger u :=
  ⟨second.1.trans first.1, second.2.trans first.2⟩

theorem SameLedger.get?_eq {s t : Stub} (same : s.SameLedger t) (k : String) :
    t.get? k = s.get? k := by
  simp only [Stub.get?, same.1]

theorem sameLedger_emit (s : Stub) (name : String) (payload : Bytes) :
    s.SameLedger (s.emit name payload) := ⟨rfl, rfl⟩

@[simp] theorem events_emit (s : Stub) (name : String) (payload : Bytes) :
    (s.emit name payload).events = s.events ++ [⟨name, payload⟩] := rfl

/-- Starting a transaction at a timestamp keeps the ledger. -/
theorem sameLedger_begin (s : Stub) (function : String) (args : List Bytes) (t : Timestamp) :
    s.SameLedger ((s.begin function args).setTimestamp t) := ⟨rfl, rfl⟩

end Stub

/-- A ledger refines a store exactly when another stub with the same ledger does. -/
theorem Refines.of_sameLedger {reg : Registry α} {M : Store α} {s t : Stub}
    (rel : Refines reg M s) (same : s.SameLedger t) : Refines reg M t where
  failing := same.2.trans rel.failing
  stored := rel.stored
  exact k b := by rw [same.get?_eq k]; exact rel.exact k b

namespace LedgerOp

/-- An operation that leaves every ledger as it found it; it may emit events. -/
def KeepsLedger (x : LedgerOp β) : Prop := ∀ s : Stub, s.SameLedger (x.exec s).2

theorem ReadOnly.keepsLedger {x : LedgerOp β} (readOnly : ReadOnly x) : KeepsLedger x :=
  fun s => .of_eq (readOnly s)

theorem keepsLedger_emitNamed (name : String) (p : Payload) : KeepsLedger (emitNamed name p) :=
  fun s => Stub.sameLedger_emit s name p.bytes

theorem keepsLedger_emit (events : EventRegistry) (p : Payload) : KeepsLedger (emit events p) := by
  intro s
  unfold emit
  split
  · exact keepsLedger_emitNamed _ p s
  · exact .refl s

end LedgerOp

theorem StagedEvent.keepsLedger_emit (events : EventRegistry) :
    (ev : StagedEvent) → LedgerOp.KeepsLedger (ev.emit events)
  | .typed p => LedgerOp.keepsLedger_emit events p
  | .named name p => LedgerOp.keepsLedger_emitNamed name p

/-- The state operation a command runs. -/
def Command.toStateOp : Command α → StateOp α
  | .insert kind e => .insert kind e
  | .put kind e => .put kind e
  | .delete kind id => .delete kind id

/-- A command leaves the ledger its state operation leaves. -/
theorem Command.exec_run_toStateOp (reg : Registry α) (c : Command α) (s : Stub) :
    ((c.toStateOp.run reg).exec s).2 = ((c.run reg).exec s).2 := by
  cases c <;>
  · simp only [toStateOp, StateOp.run, run, LedgerOp.exec_bind]
    split <;> simp_all

/-- A batch of one command and an event changes the ledger as the command's state operation does:
the event changes only the transaction's events, and is not emitted when the command fails. -/
theorem Batch.apply_single (reg : Registry α) (events : EventRegistry) (c : Command α)
    (ev : StagedEvent) (s : Stub) :
    ((c.toStateOp.run reg).exec s).2.SameLedger
      ((((Batch.empty.push c).setEvent ev).apply reg events).exec s).2 := by
  rw [Command.exec_run_toStateOp]
  show _ = _ ∧ _ = _
  rw [Batch.apply, LedgerOp.exec_bind]
  simp only [Batch.empty, Batch.push, Batch.setEvent, List.nil_append, Batch.runAll,
    LedgerOp.exec_bind]
  rcases (c.run reg).exec s with ⟨result, s'⟩
  cases result with
  | error e => exact ⟨rfl, rfl⟩
  | ok u => exact ev.keepsLedger_emit events s'

/-! ## Steps of a call -/

namespace Call

theorem run_bind (x : Call α β) (f : β → Call α γ) (ctx : Context α) :
    (x >>= f).run.run ctx =
      match x.run.run ctx with
      | (.ok b, ctx') => (f b).run.run ctx'
      | (.error e, ctx') => (.error e, ctx') := by
  show (StateT.bind x (ExceptT.bindCont f)) ctx = _
  simp only [StateT.bind, ExceptT.run, StateT.run]
  rcases x ctx with ⟨result, ctx'⟩
  cases result <;> rfl

theorem run_get (ctx : Context α) :
    (get : Call α (Context α)).run.run ctx = (.ok ctx, ctx) := rfl

theorem run_ledger (op : LedgerOp β) (ctx : Context α) :
    (Call.ledger op).run.run ctx =
      ((op.exec ctx.stub).1.mapError RouterError.state,
        { ctx with stub := (op.exec ctx.stub).2 }) := by
  rw [Call.ledger, run_bind, run_get]
  rcases ran : op.exec ctx.stub with ⟨result, stub⟩
  cases result <;> simp only [LedgerOp.exec] at ran <;> simp only [ran] <;> rfl

/-- Runs a ledger operation built from the context's registries. -/
def withRegistries (w : Registry α → EventRegistry → LedgerOp β) : Call α β := do
  let c ← get
  Call.ledger (w c.entities c.events)

/-- Applying a batch runs it with the context's registries. -/
theorem apply_eq_withRegistries (b : Batch α) :
    Call.apply b = withRegistries fun reg events => b.apply reg events := rfl

theorem run_withRegistries (w : Registry α → EventRegistry → LedgerOp β) (ctx : Context α) :
    (withRegistries w).run.run ctx =
      (((w ctx.entities ctx.events).exec ctx.stub).1.mapError RouterError.state,
        { ctx with stub := ((w ctx.entities ctx.events).exec ctx.stub).2 }) :=
  run_ledger (w ctx.entities ctx.events) ctx

/-- A call that leaves the stub and the registries of its context as they are. -/
def Frames (c : Call α β) : Prop :=
  ∀ ctx, (c.run.run ctx).2.stub = ctx.stub ∧ (c.run.run ctx).2.entities = ctx.entities ∧
    (c.run.run ctx).2.events = ctx.events

theorem Frames.bind {x : Call α β} {f : β → Call α γ} (first : Frames x)
    (rest : ∀ b, Frames (f b)) : Frames (x >>= f) := by
  intro ctx
  rw [run_bind]
  obtain ⟨stub, entities, events⟩ := first ctx
  rcases ran : x.run.run ctx with ⟨result, ctx'⟩
  rw [ran] at stub entities events
  cases result with
  | error e => exact ⟨stub, entities, events⟩
  | ok b =>
    obtain ⟨stub', entities', events'⟩ := rest b ctx'
    exact ⟨stub'.trans stub, entities'.trans entities, events'.trans events⟩

/-- A call that leaves its context exactly as it found it: it reads arguments, the time or the
ledger, checks, answers or fails. -/
def Reads (c : Call α β) : Prop := ∀ ctx, (c.run.run ctx).2 = ctx

theorem Reads.frames {c : Call α β} (reads : Reads c) : Frames c := by
  intro ctx
  rw [reads ctx]
  exact ⟨rfl, rfl, rfl⟩

theorem Reads.bind {x : Call α β} {f : β → Call α γ} (first : Reads x)
    (rest : ∀ b, Reads (f b)) : Reads (x >>= f) := by
  intro ctx
  rw [run_bind]
  have kept := first ctx
  rcases ran : x.run.run ctx with ⟨result, ctx'⟩
  rw [ran] at kept
  dsimp only at kept
  subst kept
  cases result with
  | error e => rfl
  | ok b => exact rest b _

/-- A failure ends the call where it stands, whatever was to follow. -/
theorem reads_throw_bind (e : RouterError) (f : β → Call α γ) : Reads (throw e >>= f) :=
  fun _ => rfl

theorem reads_pure (b : β) : Reads (pure b : Call α β) := fun _ => rfl

theorem reads_get : Reads (get : Call α (Context α)) := fun _ => rfl

theorem run_arg (t : Plain) (name : String) (ctx : Context α) :
    (arg t name : Call α t.Val).run.run ctx = (ctx.argOf t name, ctx) := by
  rw [arg, run_bind, run_get]
  dsimp only
  cases ctx.argOf t name <;> rfl

theorem reads_arg (t : Plain) (name : String) : Reads (arg t name : Call α t.Val) :=
  fun ctx => by rw [run_arg]

theorem run_time (ctx : Context α) :
    (time : Call α Timestamp).run.run ctx = (.ok ctx.stub.timestamp, ctx) := rfl

theorem reads_time : Reads (time : Call α Timestamp) := fun _ => rfl

theorem reads_withRegistries {w : Registry α → EventRegistry → LedgerOp β}
    (readOnly : ∀ reg events, (w reg events).ReadOnly) : Reads (withRegistries w) := by
  intro ctx
  rw [run_withRegistries, readOnly ctx.entities ctx.events ctx.stub]

/-- A ledger operation that goes through answers what it answers on the context's ledger. -/
theorem exec_of_run_withRegistries {w : Registry α → EventRegistry → LedgerOp β}
    {ctx ctx' : Context α} {b : β} (ran : (withRegistries w).run.run ctx = (.ok b, ctx')) :
    ((w ctx.entities ctx.events).exec ctx.stub).1 = .ok b := by
  rw [run_withRegistries, Prod.mk.injEq] at ran
  cases found : ((w ctx.entities ctx.events).exec ctx.stub).1 with
  | error e => rw [found] at ran; cases ran.1
  | ok b' => rw [found] at ran; cases ran.1; rfl

theorem Frames.forM {xs : List β} {g : β → Call α Unit} (each : ∀ x ∈ xs, Frames (g x)) :
    Frames (xs.forM g) := by
  induction xs with
  | nil => exact (reads_pure ()).frames
  | cons x rest ih =>
    exact (each x List.mem_cons_self).bind fun _ =>
      ih fun y mem => each y (List.mem_cons_of_mem x mem)

/-- A call that leaves the ledger of its stub as it found it; it may emit events. -/
def KeepsLedger (c : Call α β) : Prop :=
  ∀ ctx : Context α, ctx.stub.SameLedger (c.run.run ctx).2.stub

theorem Frames.keepsLedger {c : Call α β} (frames : Frames c) : KeepsLedger c :=
  fun ctx => .of_eq (frames ctx).1

theorem KeepsLedger.bind {x : Call α β} {f : β → Call α γ} (first : KeepsLedger x)
    (rest : ∀ b, KeepsLedger (f b)) : KeepsLedger (x >>= f) := by
  intro ctx
  rw [run_bind]
  have kept := first ctx
  rcases ran : x.run.run ctx with ⟨result, ctx'⟩
  rw [ran] at kept
  cases result with
  | error e => exact kept
  | ok b => exact kept.trans (rest b ctx')

theorem keepsLedger_withRegistries {w : Registry α → EventRegistry → LedgerOp β}
    (keeps : ∀ reg events, (w reg events).KeepsLedger) : KeepsLedger (withRegistries w) := by
  intro ctx
  rw [run_withRegistries]
  exact keeps ctx.entities ctx.events ctx.stub

/-! ## Calls that write once -/

/-- From a context, a call ends with the ledger it started from, or with the ledger that one
operation `allowed` on that ledger leaves, run with the context's entity registry. -/
def WritesOnceFrom (allowed : Stub → StateOp α → Prop) (c : Call α β) (ctx : Context α) :
    Prop :=
  ctx.stub.SameLedger (c.run.run ctx).2.stub ∨
    ∃ op, allowed ctx.stub op ∧
      ((op.run ctx.entities).exec ctx.stub).2.SameLedger (c.run.run ctx).2.stub

/-- From every context with the registries `reg` and `events`, a call writes at most once, with an
operation `allowed` on the ledger it starts from. -/
def WritesOnce (reg : Registry α) (events : EventRegistry) (allowed : Stub → StateOp α → Prop)
    (c : Call α β) : Prop :=
  ∀ ctx : Context α, ctx.entities = reg → ctx.events = events → WritesOnceFrom allowed c ctx

section WritesOnce

variable {reg : Registry α} {events : EventRegistry} {allowed : Stub → StateOp α → Prop}
  {ctx : Context α}

theorem KeepsLedger.writesOnceFrom {c : Call α β} (keeps : KeepsLedger c) :
    WritesOnceFrom allowed c ctx :=
  .inl (keeps ctx)

theorem KeepsLedger.writesOnce {c : Call α β} (keeps : KeepsLedger c) :
    WritesOnce reg events allowed c :=
  fun _ _ _ => keeps.writesOnceFrom

/-- A step that frames, then a call that writes once from the context the step leaves, knowing
what the step answered there. -/
theorem WritesOnceFrom.frame_bind {x : Call α β} {f : β → Call α γ} (first : Frames x)
    (rest : ∀ b ctx', x.run.run ctx = (.ok b, ctx') → WritesOnceFrom allowed (f b) ctx') :
    WritesOnceFrom allowed (x >>= f) ctx := by
  unfold WritesOnceFrom
  rw [run_bind]
  obtain ⟨stub, sameEntities, -⟩ := first ctx
  rcases ran : x.run.run ctx with ⟨result, ctx'⟩
  rw [ran] at stub sameEntities
  dsimp only at stub sameEntities
  cases result with
  | error e => exact .inl (.of_eq stub)
  | ok b =>
    rcases rest b ctx' ran with kept | ⟨op, allowedOp, written⟩
    · exact .inl (stub ▸ kept)
    · rw [stub] at allowedOp
      rw [stub, sameEntities] at written
      exact .inr ⟨op, allowedOp, written⟩

/-- The one write: an operation on the ledger that changes it as an allowed state operation
does. -/
theorem WritesOnceFrom.withRegistries (w : Registry α → EventRegistry → LedgerOp β)
    (op : StateOp α) (allowedOp : allowed ctx.stub op)
    (same : ((op.run ctx.entities).exec ctx.stub).2.SameLedger
      ((w ctx.entities ctx.events).exec ctx.stub).2) :
    WritesOnceFrom allowed (withRegistries w) ctx := by
  refine .inr ⟨op, allowedOp, ?_⟩
  rw [run_withRegistries]
  exact same

/-- What follows a call that writes once may emit events, but not write. -/
theorem WritesOnceFrom.bind_keepsLedger {x : Call α β} {f : β → Call α γ}
    (first : WritesOnceFrom allowed x ctx) (rest : ∀ b, KeepsLedger (f b)) :
    WritesOnceFrom allowed (x >>= f) ctx := by
  unfold WritesOnceFrom at first ⊢
  rw [run_bind]
  rcases ran : x.run.run ctx with ⟨result, ctx'⟩
  rw [ran] at first
  have kept : ctx'.stub.SameLedger
      (match (result, ctx') with
        | (.ok b, ctx') => (f b).run.run ctx'
        | (.error e, ctx') => (.error e, ctx')).2.stub := by
    cases result with
    | error e => exact .refl _
    | ok b => exact rest b ctx'
  rcases first with same | ⟨op, allowedOp, written⟩
  · exact .inl (same.trans kept)
  · exact .inr ⟨op, allowedOp, written.trans kept⟩

/-- A read, then a call that writes once, knowing what the read answered. -/
theorem WritesOnceFrom.read_bind {x : Call α β} {f : β → Call α γ} (first : Reads x)
    (rest : ∀ b, x.run.run ctx = (.ok b, ctx) → WritesOnceFrom allowed (f b) ctx) :
    WritesOnceFrom allowed (x >>= f) ctx := by
  refine WritesOnceFrom.frame_bind first.frames fun b ctx' ran => ?_
  have kept := first ctx
  rw [ran] at kept
  dsimp only at kept
  subst kept
  exact rest b ran

theorem WritesOnce.frames_bind {x : Call α β} {f : β → Call α γ} (first : Frames x)
    (rest : ∀ b, WritesOnce reg events allowed (f b)) :
    WritesOnce reg events allowed (x >>= f) := by
  intro ctx entities events'
  refine WritesOnceFrom.frame_bind first fun b ctx' ran => ?_
  obtain ⟨-, sameEntities, sameEvents⟩ := first ctx
  rw [ran] at sameEntities sameEvents
  exact rest b ctx' (sameEntities.trans entities) (sameEvents.trans events')

end WritesOnce

end Call

/-! ## Chains -/

section Chains

open Call

variable {reg : Registry α} {events : EventRegistry} {allowed : Stub → StateOp α → Prop}

theorem frames_bind_param (name : String) (t : Plain) (position : Nat) :
    Frames (Middleware.bind name t position : Call α Unit) := by
  refine reads_get.frames.bind fun c => ?_
  split
  · exact fun _ => ⟨rfl, rfl, rfl⟩
  · split
    · exact fun _ => ⟨rfl, rfl, rfl⟩
    · exact fun _ => ⟨rfl, rfl, rfl⟩

/-- A property of handlers that every framing step keeps in front of a handler holds of the
handler behind the arity check. -/
theorem exactArity_of_frames_bind {Q : Call α Bytes → Prop}
    (framesBind : ∀ {β : Type} (x : Call α β) (f : β → Call α Bytes), Frames x →
      (∀ b, Q (f b)) → Q (x >>= f))
    {next : Handler α} (expected : Nat) (guarded : Q next) : Q (exactArity expected next) := by
  refine framesBind _ _ reads_get.frames fun c => ?_
  dsimp only
  split
  · exact framesBind _ _ (show Reads (throw _ : Call α PUnit) from fun _ => rfl).frames
      fun _ => guarded
  · exact guarded

theorem Frames.forM_links {links : List (Link α)}
    (frames : ∀ l ∈ links, ∀ p, Frames (l.run p))
    {xs : List (Link α × Nat)} (within : ∀ x ∈ xs, x.1 ∈ links) :
    Frames (xs.forM fun link => link.1.run link.2) :=
  Frames.forM fun x mem => frames x.1 (within x mem) x.2

theorem fst_mem_of_mem_mapIdx {l : List (Link α)} {position : Nat → Link α → Nat}
    {x : Link α × Nat} (mem : x ∈ l.mapIdx fun i b => (b, position i b)) : x.1 ∈ l := by
  obtain ⟨i, bound, rfl⟩ := List.mem_mapIdx.mp mem
  exact List.getElem_mem bound

/-- A property of handlers that every framing step keeps in front of a handler holds of the
handler behind links that bind parameters or log. -/
theorem linkSequence_of_frames_bind {Q : Call α Bytes → Prop}
    (framesBind : ∀ {β : Type} (x : Call α β) (f : β → Call α Bytes), Frames x →
      (∀ b, Q (f b)) → Q (x >>= f))
    {h : Handler α} {router own : List (Link α)} (strict : Bool)
    (frames : ∀ l ∈ router ++ own, ∀ p, Frames (l.run p)) (handler : Q h) :
    Q (linkSequence h router own strict) := by
  have routerLinks : ∀ l ∈ router, ∀ p, Frames (l.run p) :=
    fun l mem => frames l (List.mem_append_left own mem)
  have ownLinks : ∀ l ∈ own, ∀ p, Frames (l.run p) :=
    fun l mem => frames l (List.mem_append_right router mem)
  have params : ∀ l ∈ own.filter Link.isParam, ∀ p, Frames (l.run p) :=
    fun l mem => ownLinks l (List.mem_filter.mp mem).1
  have others : ∀ l ∈ own.filter (fun l => !l.isParam), ∀ p, Frames (l.run p) :=
    fun l mem => ownLinks l (List.mem_filter.mp mem).1
  refine framesBind _ _
    (Frames.forM_links routerLinks fun _ mem => fst_mem_of_mem_mapIdx mem) fun _ => ?_
  refine framesBind _ _
    (Frames.forM_links params fun _ mem => fst_mem_of_mem_mapIdx mem) fun _ => ?_
  have rest : Q (do (own.filter fun l => !l.isParam).forM (fun l => l.run 0); h : Call α Bytes) :=
    framesBind _ _ (Frames.forM fun l mem => others l mem 0) fun _ => handler
  cases strict with
  | false => exact rest
  | true => exact exactArity_of_frames_bind framesBind _ rest

/-- A chain of links that bind parameters or log writes as its handler does. -/
theorem WritesOnce.linkSequence {h : Handler α} {router own : List (Link α)} (strict : Bool)
    (frames : ∀ l ∈ router ++ own, ∀ p, Frames (l.run p))
    (handler : WritesOnce reg events allowed h) :
    WritesOnce reg events allowed (linkSequence h router own strict) :=
  linkSequence_of_frames_bind (fun _ _ first rest => WritesOnce.frames_bind first rest) strict
    frames handler

theorem Link.frames_run {l : Link α} (notCheck : ∀ c, l ≠ .check c) (position : Nat) :
    Frames (l.run position) := by
  cases l with
  | param name type => exact frames_bind_param name type position
  | check c => exact absurd rfl (notCheck c)
  | log => exact (reads_pure ()).frames

/-- A handler behind links that bind parameters or log writes as the handler does. -/
theorem WritesOnce.compose {h : Handler α} (router own : List (Link α)) (strict : Bool)
    (noChecks : ∀ l ∈ router ++ own, ∀ c, l ≠ .check c)
    (handler : WritesOnce reg events allowed h) :
    WritesOnce reg events allowed
      (compose h (router.map Link.toMiddleware) (own.map Link.toMiddleware) strict) := by
  rw [compose_links]
  exact WritesOnce.linkSequence strict (fun l mem => Link.frames_run (noChecks l mem)) handler

end Chains

/-! ## Routers -/

theorem Action.withMiddleware_nil (base : List (Middleware α)) :
    Action.withMiddleware base ([] : List (Action α)) = [] := rfl

/-- A route a registration history gives a name is entered by one of its actions, with the
middleware the router had when that action ran. -/
theorem Action.exists_serves_of_route {strict : Bool} {base : List (Middleware α)}
    {acts : List (Action α)} {phase : Phase} {f : String} {route : Route α}
    (routed : Action.route strict base acts phase f = some route) :
    ∃ entry ∈ Action.withMiddleware base acts, ∃ kind,
      Action.serves strict phase f kind entry = some route := by
  have last : ∀ kind,
      ((Action.withMiddleware base acts).filterMap (Action.serves strict phase f kind)).getLast? =
        some route →
      ∃ entry ∈ Action.withMiddleware base acts, ∃ kind,
        Action.serves strict phase f kind entry = some route := by
    intro kind found
    obtain ⟨entry, mem, served⟩ := List.mem_filterMap.mp (List.mem_of_getLast? found)
    exact ⟨entry, mem, kind, served⟩
  unfold Action.route at routed
  rcases Option.or_eq_some_iff.mp routed with stub | ⟨-, rest⟩
  · exact last .stub stub
  · rcases Option.or_eq_some_iff.mp rest with context | ⟨-, result⟩
    · exact last .context context
    · exact last .result result

/-- Responding runs the dispatch and answers its response, or the error response of its failure,
on the stub the dispatch leaves. -/
theorem Router.run_respond (r : Router α) (phase : Phase) (f : String) (args : List Bytes)
    (s : Stub) :
    (r.respond phase f args).run s =
      match (r.dispatch phase f args).run s with
      | (.ok resp, s') => (resp, s')
      | (.error e, s') => (Response.error e.message, s') := by
  rw [Router.respond, StateT.run_bind]
  rcases (r.dispatch phase f args).run s with ⟨result, s'⟩
  cases result <;> rfl

theorem Router.respond_stub (r : Router α) (phase : Phase) (f : String) (args : List Bytes)
    (s : Stub) : ((r.respond phase f args).run s).2 = ((r.dispatch phase f args).run s).2 := by
  rw [Router.run_respond]
  rcases (r.dispatch phase f args).run s with ⟨result, s'⟩
  cases result <;> rfl

/-- Serving an invocation writes at most once, with an operation allowed on the ledger it starts
from, when every chain the router may run for it does and no stub handler serves it. -/
theorem Router.respond_writesOnce (r : Router α) (phase : Phase) (f : String) (args : List Bytes)
    {allowed : Stub → StateOp α → Prop}
    (chains : ∀ h, (r.table phase).lookup f = some (.chain h) →
      Call.WritesOnce r.entities r.events allowed h)
    (noStub : ∀ h, (r.table phase).lookup f ≠ some (.stub h)) (s : Stub) :
    s.SameLedger ((r.respond phase f args).run s).2 ∨
      ∃ op, allowed s op ∧
        ((op.run r.entities).exec s).2.SameLedger ((r.respond phase f args).run s).2 := by
  rw [Router.respond_stub, Router.dispatch_run]
  cases found : (r.table phase).lookup f with
  | none => exact .inl (.refl s)
  | some route =>
    cases route with
    | stub h => exact absurd found (noStub h)
    | chain h => exact chains h found (Context.new s r.entities r.events f args) rfl rfl

/-! ## Invocations -/

/-- An invocation as a peer makes it: an initialisation or not, the function, the raw arguments
and the transaction's timestamp. -/
structure Invocation where
  init : Bool
  function : String
  args : List Bytes
  timestamp : Timestamp

/-- Serves an invocation on a ledger: a transaction starts with the invocation's function,
arguments and timestamp, and the router handles it, or handles the initialisation. -/
def Router.serve (r : Router α) (call : Invocation) (s : Stub) : Response × Stub :=
  (if call.init then r.handleInit else r.handle).run
    ((s.begin call.function call.args).setTimestamp call.timestamp)

/-- The stubs after each of a sequence of invocations, served in order from a ledger. -/
def Router.serveAll (r : Router α) : List Invocation → Stub → List Stub
  | [], _ => []
  | call :: rest, s => (r.serve call s).2 :: r.serveAll rest (r.serve call s).2

/-- Serving an invocation writes at most once, with an operation allowed on the ledger the
transaction starts with, when every chain of the router does and it has no stub handlers. -/
theorem Router.serve_writesOnce (r : Router α) {allowed : Stub → StateOp α → Prop}
    (chains : ∀ phase f h, (r.table phase).lookup f = some (.chain h) →
      Call.WritesOnce r.entities r.events allowed h)
    (noStub : ∀ phase f h, (r.table phase).lookup f ≠ some (.stub h)) (call : Invocation)
    (s : Stub) :
    let start := (s.begin call.function call.args).setTimestamp call.timestamp
    start.SameLedger (r.serve call s).2 ∨
      ∃ op, allowed start op ∧
        ((op.run r.entities).exec start).2.SameLedger (r.serve call s).2 := by
  intro start
  have responds : ∀ phase f,
      start.SameLedger ((r.respond phase f start.args).run start).2 ∨
        ∃ op, allowed start op ∧ ((op.run r.entities).exec start).2.SameLedger
          ((r.respond phase f start.args).run start).2 :=
    fun phase f => r.respond_writesOnce phase f start.args (chains phase f) (noStub phase f) start
  unfold Router.serve
  cases call.init with
  | false => exact responds .invoke start.function
  | true => exact responds .init _

end Chaincode
