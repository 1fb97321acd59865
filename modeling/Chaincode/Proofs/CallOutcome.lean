import Chaincode.Proofs.CallLedger

/-!
# What an invocation answers

A call settles when, from each context it may start in, it either fails and leaves the stub
exactly as it found it, events included, or answers and leaves a stub that its answer accounts
for (`Call.Settles`). Steps that frame (binding a parameter, reading an argument, the time or the
ledger, checking) keep this in front of a call, so a handler that settles still settles behind
links that bind parameters or log, and a router that dispatches to it answers as it does: an
error response leaves the transaction's stub as it was, and a success carries the handler's
answer (`Router.serve_settles`).
-/

namespace Chaincode

variable {α β γ : Type}

namespace Call

/-- From one context, a call that fails leaves the stub as it found it, and a call that answers
`b` leaves a stub that `done b` relates to the one it found. -/
def SettlesFrom (done : β → Stub → Stub → Prop) (c : Call α β) (ctx : Context α) : Prop :=
  (∀ e ctx', c.run.run ctx = (.error e, ctx') → ctx'.stub = ctx.stub) ∧
    ∀ b ctx', c.run.run ctx = (.ok b, ctx') → done b ctx.stub ctx'.stub

/-- From every context with the registries `reg` and `events` whose stub satisfies `pre`, a call
settles. -/
def Settles (reg : Registry α) (events : EventRegistry) (pre : Stub → Prop)
    (done : β → Stub → Stub → Prop) (c : Call α β) : Prop :=
  ∀ ctx : Context α, ctx.entities = reg → ctx.events = events → pre ctx.stub →
    SettlesFrom done c ctx

section Settles

variable {done : γ → Stub → Stub → Prop} {ctx : Context α}

/-- A step that frames, then a call that settles from the context the step leaves. -/
theorem SettlesFrom.frame_bind {x : Call α β} {f : β → Call α γ} (first : Frames x)
    (rest : ∀ b ctx', x.run.run ctx = (.ok b, ctx') → SettlesFrom done (f b) ctx') :
    SettlesFrom done (x >>= f) ctx := by
  obtain ⟨stub, -, -⟩ := first ctx
  unfold SettlesFrom
  rw [run_bind]
  rcases ran : x.run.run ctx with ⟨result, ctx'⟩
  rw [ran] at stub
  dsimp only at stub
  cases result with
  | error e =>
    refine ⟨fun e' ctx'' failed => ?_, fun b ctx'' answered => ?_⟩
    · cases failed
      exact stub
    · cases answered
  | ok b =>
    obtain ⟨fails, answers⟩ := rest b ctx' ran
    refine ⟨fun e ctx'' failed => (fails e ctx'' failed).trans stub, fun b' ctx'' answered => ?_⟩
    rw [← stub]
    exact answers b' ctx'' answered

/-- A read, then a call that settles, knowing what the read answered. -/
theorem SettlesFrom.read_bind {x : Call α β} {f : β → Call α γ} (first : Reads x)
    (rest : ∀ b, x.run.run ctx = (.ok b, ctx) → SettlesFrom done (f b) ctx) :
    SettlesFrom done (x >>= f) ctx := by
  refine SettlesFrom.frame_bind first.frames fun b ctx' ran => ?_
  have kept := first ctx
  rw [ran] at kept
  dsimp only at kept
  subst kept
  exact rest b ran

/-- A call that only reads settles when `done` accepts each of its answers on the stub it
read. -/
theorem Reads.settlesFrom {c : Call α γ} (reads : Reads c)
    (answers : ∀ b, c.run.run ctx = (.ok b, ctx) → done b ctx.stub ctx.stub) :
    SettlesFrom done c ctx := by
  have kept := reads ctx
  refine ⟨fun e ctx' failed => ?_, fun b ctx' answered => ?_⟩
  · rw [failed] at kept
    dsimp only at kept
    rw [kept]
  · rw [answered] at kept
    dsimp only at kept
    subst kept
    exact answers b answered

/-- A ledger operation that fails without changing the stub, then a call that answers from the
stub the operation leaves. -/
theorem SettlesFrom.withRegistries_bind {w : Registry α → EventRegistry → LedgerOp β}
    {f : β → Call α γ}
    (clean : ∀ e s', (w ctx.entities ctx.events).exec ctx.stub = (.error e, s') → s' = ctx.stub)
    (rest : ∀ b s', (w ctx.entities ctx.events).exec ctx.stub = (.ok b, s') →
      ∃ a ctx', (f b).run.run { ctx with stub := s' } = (.ok a, ctx') ∧
        done a ctx.stub ctx'.stub) :
    SettlesFrom done (withRegistries w >>= f) ctx := by
  unfold SettlesFrom
  rw [run_bind, run_withRegistries]
  cases ran : (w ctx.entities ctx.events).exec ctx.stub with
  | mk result s' =>
    cases result with
    | error e =>
      have kept := clean e s' ran
      refine ⟨fun e' ctx' failed => ?_, fun a ctx' answered => ?_⟩
      · cases failed
        exact kept
      · cases answered
    | ok b =>
      obtain ⟨a, ctx', answered, accounted⟩ := rest b s' ran
      refine ⟨fun e ctx'' failed => ?_, fun a' ctx'' answered' => ?_⟩
      · rw [show (Except.ok b).mapError RouterError.state = .ok b from rfl] at failed
        dsimp only at failed
        rw [answered] at failed
        cases failed
      · rw [show (Except.ok b).mapError RouterError.state = .ok b from rfl] at answered'
        dsimp only at answered'
        rw [answered] at answered'
        cases answered'
        exact accounted

/-- A ledger operation that either fails without a change, or goes through and is followed by a
call that answers from the stub it leaves. -/
theorem SettlesFrom.withRegistries_bind_of {w : Registry α → EventRegistry → LedgerOp β}
    {f : β → Call α γ}
    (outcome : (∃ e, (w ctx.entities ctx.events).exec ctx.stub = (.error e, ctx.stub)) ∨
      ∃ b s', (w ctx.entities ctx.events).exec ctx.stub = (.ok b, s') ∧
        ∃ a ctx', (f b).run.run { ctx with stub := s' } = (.ok a, ctx') ∧
          done a ctx.stub ctx'.stub) :
    SettlesFrom done (withRegistries w >>= f) ctx := by
  rcases outcome with ⟨e, refused⟩ | ⟨b, s', ran, answered⟩
  · refine SettlesFrom.withRegistries_bind (fun e' s'' failed => ?_) fun b' s'' ran' => ?_
    · rw [refused] at failed
      cases failed
      rfl
    · rw [refused] at ran'
      cases ran'
  · refine SettlesFrom.withRegistries_bind (fun e' s'' failed => ?_) fun b' s'' ran' => ?_
    · rw [ran] at failed
      cases failed
    · rw [ran] at ran'
      cases ran'
      exact answered

/-- A failure settles, whatever was to follow. -/
theorem SettlesFrom.throw_bind (e : RouterError) (f : β → Call α γ) :
    SettlesFrom done (throw e >>= f) ctx :=
  (reads_throw_bind e f).settlesFrom fun b answered => by cases answered

/-- A call that only reads settles wherever `done` accepts each answer on an unchanged stub. -/
theorem Reads.settles {reg : Registry α} {events : EventRegistry} {pre : Stub → Prop}
    {c : Call α γ} (reads : Reads c) (answers : ∀ b s, done b s s) :
    Settles reg events pre done c :=
  fun ctx _ _ _ => reads.settlesFrom fun b _ => answers b ctx.stub

theorem Settles.frames_bind {reg : Registry α} {events : EventRegistry} {pre : Stub → Prop}
    {x : Call α β} {f : β → Call α γ} (first : Frames x)
    (rest : ∀ b, Settles reg events pre done (f b)) : Settles reg events pre done (x >>= f) := by
  intro ctx entities events' holds
  refine SettlesFrom.frame_bind first fun b ctx' ran => ?_
  obtain ⟨stub, sameEntities, sameEvents⟩ := first ctx
  rw [ran] at stub sameEntities sameEvents
  dsimp only at stub sameEntities sameEvents
  exact rest b ctx' (sameEntities.trans entities) (sameEvents.trans events') (stub ▸ holds)

end Settles

/-- A handler that settles settles behind links that bind parameters or log. -/
theorem Settles.compose {reg : Registry α} {events : EventRegistry} {pre : Stub → Prop}
    {done : Bytes → Stub → Stub → Prop} {h : Handler α} (router own : List (Link α))
    (strict : Bool) (noChecks : ∀ l ∈ router ++ own, ∀ c, l ≠ .check c)
    (handler : Settles reg events pre done h) :
    Settles reg events pre done
      (compose h (router.map Link.toMiddleware) (own.map Link.toMiddleware) strict) := by
  rw [compose_links]
  exact linkSequence_of_frames_bind (fun _ _ first rest => Settles.frames_bind first rest) strict
    (fun l mem => Link.frames_run (noChecks l mem)) handler

end Call

/-! ## Routers -/

/-- Serving a name answers as the handler that serves it: an error response leaves the stub as it
was, and a success carries an answer the handler accounts for. -/
theorem Router.respond_settles (r : Router α) (phase : Phase) (f : String) (args : List Bytes)
    {pre : Stub → Prop} {done : Bytes → Stub → Stub → Prop}
    (chains : ∀ h, (r.table phase).lookup f = some (.chain h) →
      Call.Settles r.entities r.events pre done h)
    (noStub : ∀ h, (r.table phase).lookup f ≠ some (.stub h)) {s : Stub} (holds : pre s) :
    (((r.respond phase f args).run s).1.ok = false → ((r.respond phase f args).run s).2 = s) ∧
      (((r.respond phase f args).run s).1.ok = true →
        done ((r.respond phase f args).run s).1.payload s ((r.respond phase f args).run s).2) := by
  rw [Router.run_respond, Router.dispatch_run]
  cases found : (r.table phase).lookup f with
  | none => exact ⟨fun _ => rfl, fun failed => (by cases failed)⟩
  | some route =>
    cases route with
    | stub h => exact absurd found (noStub h)
    | chain h =>
      -- the handler runs on the transaction's stub, with the router's registries
      obtain ⟨fails, answers⟩ := chains h found (Context.new s r.entities r.events f args) rfl rfl
        holds
      dsimp only
      cases ran : h.run.run (Context.new s r.entities r.events f args) with
      | mk result ctx' =>
        cases result with
        | error e => exact ⟨fun _ => fails e ctx' ran, fun failed => (by cases failed)⟩
        | ok b => exact ⟨fun answered => (by cases answered), fun _ => answers b ctx' ran⟩

/-- Serving an invocation answers as the handler that serves its name in its phase, when every
handler of the router settles and none sees only the stub: an error response leaves the stub
the transaction started with, and a success carries an answer the handler accounts for. -/
theorem Router.serve_settles (r : Router α) {pre : Stub → Prop}
    {done : Phase → String → Bytes → Stub → Stub → Prop}
    (chains : ∀ phase f h, (r.table phase).lookup f = some (.chain h) →
      Call.Settles r.entities r.events pre (done phase f) h)
    (noStub : ∀ phase f h, (r.table phase).lookup f ≠ some (.stub h)) (call : Invocation)
    (s : Stub) (holds : pre ((s.begin call.function call.args).setTimestamp call.timestamp)) :
    let start := (s.begin call.function call.args).setTimestamp call.timestamp
    ((r.serve call s).1.ok = false → (r.serve call s).2 = start) ∧
      ((r.serve call s).1.ok = true →
        (call.init = false → done .invoke call.function (r.serve call s).1.payload start
          (r.serve call s).2) ∧
        (call.init = true →
          done .init (if call.function.isEmpty then r.config.initFunction else call.function)
            (r.serve call s).1.payload start (r.serve call s).2)) := by
  intro start
  unfold Router.serve
  cases initial : call.init with
  | false =>
    obtain ⟨fails, answers⟩ := r.respond_settles .invoke start.function start.args
      (chains .invoke start.function) (noStub .invoke start.function) holds
    exact ⟨fails, fun answered => ⟨fun _ => answers answered, fun wrong => (by cases wrong)⟩⟩
  | true =>
    obtain ⟨fails, answers⟩ := r.respond_settles .init
      (if start.function.isEmpty then r.config.initFunction else start.function) start.args
      (chains .init _) (noStub .init _) holds
    exact ⟨fails, fun answered => ⟨fun wrong => (by cases wrong), fun _ => answers answered⟩⟩

end Chaincode
