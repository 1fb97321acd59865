import Chaincode.Proofs.CallLedger
import Chaincode.Proofs.Paper.Codec
import Chaincode.Paper.Contract

/-!
# What an invocation of the paper contract may write

Every handler of the contract writes at most once. Issuing inserts a new paper owned by its
issuer and stamped with the transaction's time; buying and redeeming put back a paper they have
just read, not redeemed, with a new owner and state; deleting deletes. The other handlers only
read, and the logging middleware and the parameters only bind. So serving any invocation, under
any configuration the contract's router accepts, leaves the ledger it found or the ledger one of
those writes leaves (`PaperWrite`).
-/

namespace Chaincode.Paper

open Call

/-- The contract's entity registry: papers alone. -/
def registry : Registry CommercialPaper :=
  ⟨[mapping], mapping.namespaces.map fun ns => (ns, mapping.entity)⟩

theorem entityRegistry_eq : entityRegistry = .ok registry := rfl

/-- The writes an invocation of the contract may make on a ledger: issue a new paper owned by
its issuer at the transaction's time; hand over, or redeem back to its issuer, a paper read from
that ledger that is not redeemed; or delete a paper. -/
inductive PaperWrite (s : Stub) : StateOp CommercialPaper → Prop
  | issue (issuer number : String) (faceValue : UInt64) (externalId : String) :
      PaperWrite s (.insert CommercialPaper.kind
        ⟨issuer, number, issuer, faceValue, externalId, .issued, some s.timestamp⟩)
  | trade {id : Key} {p : CommercialPaper}
      (read : ((LedgerOp.getEntity registry CommercialPaper.kind id).exec s).1 = .ok p)
      (live : p.state ≠ .redeemed) (owner : String) :
      PaperWrite s (.put CommercialPaper.kind { p with owner := owner, state := .trading })
  | redeem {id : Key} {p : CommercialPaper}
      (read : ((LedgerOp.getEntity registry CommercialPaper.kind id).exec s).1 = .ok p)
      (live : p.state ≠ .redeemed) :
      PaperWrite s (.put CommercialPaper.kind { p with owner := p.issuer, state := .redeemed })
  | erase (id : Key) : PaperWrite s (.delete CommercialPaper.kind id)

theorem withState_eq {β : Type} (op : Registry CommercialPaper → EventRegistry → LedgerOp β) :
    withState op = withRegistries op := rfl

theorem reads_paperId : Reads paperId :=
  (reads_arg _ _).bind fun _ => (reads_arg _ _).bind fun _ => reads_pure _

theorem reads_getEntity (id : Key) :
    Reads (withRegistries fun reg _ => LedgerOp.getEntity reg CommercialPaper.kind id) :=
  reads_withRegistries fun reg _ => LedgerOp.readOnly_getEntity reg _ id

/-! ## Handlers -/

section Writes

variable {ctx : Context CommercialPaper}

/-- Issuing inserts a paper owned by its issuer, issued at the transaction's time. -/
theorem issue_writesOnce : WritesOnceFrom PaperWrite issue ctx := by
  rw [issue]
  simp only [apply_eq_withRegistries]
  refine WritesOnceFrom.read_bind (reads_arg _ _) fun issuer named => ?_
  refine WritesOnceFrom.read_bind (reads_arg _ _) fun number _ => ?_
  -- the owner is the issuer, read a second time
  refine WritesOnceFrom.read_bind (reads_arg _ _) fun owner named' => ?_
  obtain rfl : issuer = owner := by
    rw [named] at named'
    cases named'
    rfl
  refine WritesOnceFrom.read_bind (reads_arg _ _) fun faceValue _ => ?_
  refine WritesOnceFrom.read_bind (reads_arg _ _) fun externalId _ => ?_
  refine WritesOnceFrom.read_bind reads_time fun t stamped => ?_
  obtain rfl : t = ctx.stub.timestamp := by
    rw [run_time] at stamped
    cases stamped
    rfl
  refine WritesOnceFrom.bind_keepsLedger (WritesOnceFrom.withRegistries _
    (.insert CommercialPaper.kind
      ⟨issuer, number, issuer, faceValue, externalId, .issued, some ctx.stub.timestamp⟩)
    (.issue issuer number faceValue externalId) ?_) fun _ => (reads_pure _).frames.keepsLedger
  exact Batch.apply_single _ _ (.insert CommercialPaper.kind _) _ _

/-- Buying puts back the paper it read, unless redeemed, with the new owner. -/
theorem buy_writesOnce (entities : ctx.entities = registry) :
    WritesOnceFrom PaperWrite buy ctx := by
  rw [buy]
  simp only [withState_eq]
  refine WritesOnceFrom.read_bind reads_paperId fun id _ => ?_
  refine WritesOnceFrom.read_bind (reads_getEntity id) fun p fetched => ?_
  have read := exec_of_run_withRegistries fetched
  rw [entities] at read
  refine WritesOnceFrom.read_bind (reads_arg _ _) fun current _ => ?_
  split
  · exact (reads_throw_bind _ _).frames.keepsLedger.writesOnceFrom
  · split
    · exact (reads_throw_bind _ _).frames.keepsLedger.writesOnceFrom
    · next live =>
      refine WritesOnceFrom.read_bind (reads_arg _ _) fun owner _ => ?_
      refine WritesOnceFrom.bind_keepsLedger (WritesOnceFrom.withRegistries _
        (.put CommercialPaper.kind { p with owner := owner, state := .trading })
        (.trade read live owner) ?_) fun _ => ?_
      · exact .of_eq (Command.exec_run_toStateOp _ (.put CommercialPaper.kind _) _).symm
      · exact (keepsLedger_withRegistries fun _ events =>
          LedgerOp.keepsLedger_emit events _).bind fun _ => (reads_pure _).frames.keepsLedger

/-- Redeeming puts back the paper it read, unless redeemed, with its issuer as owner. -/
theorem redeem_writesOnce (entities : ctx.entities = registry) :
    WritesOnceFrom PaperWrite redeem ctx := by
  rw [redeem]
  simp only [withState_eq, apply_eq_withRegistries]
  refine WritesOnceFrom.read_bind reads_paperId fun id _ => ?_
  refine WritesOnceFrom.read_bind (reads_getEntity id) fun p fetched => ?_
  have read := exec_of_run_withRegistries fetched
  rw [entities] at read
  refine WritesOnceFrom.read_bind (reads_arg _ _) fun redeemer _ => ?_
  split
  · exact (reads_throw_bind _ _).frames.keepsLedger.writesOnceFrom
  · split
    · exact (reads_throw_bind _ _).frames.keepsLedger.writesOnceFrom
    · next live =>
      refine WritesOnceFrom.bind_keepsLedger (WritesOnceFrom.withRegistries _
        (.put CommercialPaper.kind { p with owner := p.issuer, state := .redeemed })
        (.redeem read live) ?_) fun _ => (reads_pure _).frames.keepsLedger
      exact Batch.apply_single _ _ (.put CommercialPaper.kind _) _ _

theorem erase_writesOnce : WritesOnceFrom PaperWrite erase ctx := by
  rw [erase]
  simp only [withState_eq]
  refine WritesOnceFrom.read_bind reads_paperId fun id _ => ?_
  exact WritesOnceFrom.withRegistries _ (.delete CommercialPaper.kind id) (.erase id)
    (.of_eq (Command.exec_run_toStateOp _ (.delete CommercialPaper.kind id) _).symm)

end Writes

theorem reads_fetch : Reads fetch := by
  rw [fetch]
  simp only [withState_eq]
  exact reads_paperId.bind fun id => (reads_getEntity id).bind fun _ => reads_pure _

theorem reads_byExternalId : Reads byExternalId := by
  rw [byExternalId]
  simp only [withState_eq]
  exact (reads_arg _ _).bind fun value => (reads_withRegistries fun reg _ =>
    LedgerOp.readOnly_getByUnique reg _ _ _).bind fun _ => reads_pure _

theorem reads_listAll : Reads listAll := by
  rw [listAll]
  simp only [withState_eq]
  exact (reads_withRegistries fun reg _ => LedgerOp.readOnly_list reg _).bind fun _ => reads_pure _

theorem reads_listByIssuer : Reads listByIssuer := by
  rw [listByIssuer]
  simp only [withState_eq]
  exact (reads_arg _ _).bind fun issuer => (reads_withRegistries fun reg _ =>
    LedgerOp.readOnly_listWith reg _ _).bind fun _ => reads_pure _

/-! ## The router -/

theorem router_eq_ok {config : RouterConfig} {r : Router CommercialPaper}
    (built : router config = .ok r) :
    ∃ r₀, Router.withConfig config registry eventRegistry = .ok r₀ ∧
      r = r₀.registerAll "" registrations := by
  unfold router at built
  rw [entityRegistry_eq] at built
  cases made : Router.withConfig config registry eventRegistry with
  | error e => simp [made, Except.mapError] at built
  | ok r₀ =>
    simp [made, Except.mapError] at built
    exact ⟨r₀, rfl, built.symm⟩

theorem withConfig_config {config : RouterConfig} {r₀ : Router CommercialPaper}
    (made : Router.withConfig config registry eventRegistry = .ok r₀) : r₀.config = config := by
  unfold Router.withConfig at made
  cases valid : config.validate with
  | error e => rw [valid] at made; cases made
  | ok u => rw [valid] at made; cases made; rfl

theorem router_registries {config : RouterConfig} {r : Router CommercialPaper}
    (built : router config = .ok r) :
    r.config = config ∧ r.entities = registry ∧ r.events = eventRegistry := by
  obtain ⟨r₀, made, rfl⟩ := router_eq_ok built
  obtain ⟨-, -, entities, events⟩ := Router.fresh_of_built (.inl made)
  obtain ⟨config', entities', events'⟩ := Action.foldl_apply_frame
    (Registration.actionsAll r₀.config.initFunction "" registrations) r₀
  rw [Router.registerAll_eq_foldl]
  exact ⟨config'.trans (withConfig_config made), entities'.trans entities, events'.trans events⟩

/-- The contract's routing table: the initialisation function answers the contract's name, and
each of the eight paper functions runs its handler behind the logging and its parameters;
nothing else is served, and nothing by a stub handler. -/
theorem route_cases {config : RouterConfig} {r : Router CommercialPaper}
    (built : router config = .ok r) {phase : Phase} {f : String} {route : Route CommercialPaper}
    (found : (r.table phase).lookup f = some route) :
    let chain (h : Handler CommercialPaper) (params : List (Middleware CommercialPaper)) :
        Route CommercialPaper :=
      .chain (compose h [Middleware.logging] params config.strictArgs)
    (phase = .init ∧ f = config.initFunction ∧
        route = chain (pure (Bytes.ofString "commercial-paper") : PaperCall Bytes) []) ∨
      (phase = .invoke ∧ f = "paper.issue" ∧ route = chain issue
        [textParam "issuer", textParam "number", .param "face_value" .u64,
          textParam "external_id"]) ∨
      (phase = .invoke ∧ f = "paper.buy" ∧ route = chain buy
        [textParam "issuer", textParam "number", textParam "current_owner",
          textParam "new_owner"]) ∨
      (phase = .invoke ∧ f = "paper.redeem" ∧ route = chain redeem
        [textParam "issuer", textParam "number", textParam "owner"]) ∨
      (phase = .invoke ∧ f = "paper.delete" ∧ route = chain (do erase; pure [] : PaperCall Bytes)
        [textParam "issuer", textParam "number"]) ∨
      (phase = .invoke ∧ f = "paper.get" ∧ route = chain fetch
        [textParam "issuer", textParam "number"]) ∨
      (phase = .invoke ∧ f = "paper.byExternalId" ∧ route = chain byExternalId
        [textParam "external_id"]) ∨
      (phase = .invoke ∧ f = "paper.list" ∧ route = chain listAll []) ∨
      (phase = .invoke ∧ f = "paper.listByIssuer" ∧ route = chain listByIssuer
        [textParam "issuer"]) := by
  intro chain
  obtain ⟨r₀, made, rfl⟩ := router_eq_ok built
  obtain rfl := withConfig_config made
  obtain ⟨noMiddleware, noHandlers, -, -⟩ := Router.fresh_of_built (.inl made)
  rw [Router.lookup_registerAll_of_fresh r₀ noMiddleware noHandlers] at found
  obtain ⟨entry, mem, kind, served⟩ := Action.exists_serves_of_route found
  simp only [registrations, Registration.actionsAll, Registration.actions, List.append_nil,
    List.singleton_append, Action.withMiddleware_cons, Action.added, List.nil_append,
    String.empty_append, List.mem_cons, Action.withMiddleware_nil,
    List.not_mem_nil, or_false] at mem
  -- the middleware registration enters no route, and each other one its own phase and name
  rcases mem with rfl | rfl | rfl | rfl | rfl | rfl | rfl | rfl | rfl | rfl
  · cases served
  all_goals
    simp only [Action.serves] at served
    split_ifs at served with routed
    obtain ⟨-, rfl, rfl⟩ := routed
    cases served
  · exact .inl ⟨rfl, rfl, rfl⟩
  · exact .inr (.inl ⟨rfl, rfl, rfl⟩)
  · exact .inr (.inr (.inl ⟨rfl, rfl, rfl⟩))
  · exact .inr (.inr (.inr (.inl ⟨rfl, rfl, rfl⟩)))
  · exact .inr (.inr (.inr (.inr (.inl ⟨rfl, rfl, rfl⟩))))
  · exact .inr (.inr (.inr (.inr (.inr (.inl ⟨rfl, rfl, rfl⟩)))))
  · exact .inr (.inr (.inr (.inr (.inr (.inr (.inl ⟨rfl, rfl, rfl⟩))))))
  · exact .inr (.inr (.inr (.inr (.inr (.inr (.inr (.inl ⟨rfl, rfl, rfl⟩)))))))
  · exact .inr (.inr (.inr (.inr (.inr (.inr (.inr (.inr ⟨rfl, rfl, rfl⟩)))))))

/-- The parameters of a handler of the contract are links. -/
theorem params_toMiddleware (params : List (String × Plain)) :
    params.map (fun p => (Middleware.param p.1 p.2 : Middleware CommercialPaper)) =
      (params.map fun p => Link.param p.1 p.2).map Link.toMiddleware := by
  simp [Function.comp_def, Link.toMiddleware]

/-- The logging and the parameters check nothing. -/
theorem logging_params_noChecks (params : List (String × Plain)) :
    ∀ l ∈ [Link.log] ++ params.map (fun p => (Link.param p.1 p.2 : Link CommercialPaper)),
      ∀ c, l ≠ .check c := by
  intro l mem c same
  subst same
  simp at mem

/-- A handler of the contract behind the logging and its parameters. -/
theorem writesOnce_chain {h : Handler CommercialPaper} (params : List (String × Plain))
    (strict : Bool) (handler : WritesOnce registry eventRegistry PaperWrite h) :
    WritesOnce registry eventRegistry PaperWrite
      (compose h [Middleware.logging] (params.map fun p => .param p.1 p.2) strict) := by
  rw [params_toMiddleware]
  exact WritesOnce.compose [Link.log] _ strict (logging_params_noChecks params) handler

theorem router_writesOnce {config : RouterConfig} {r : Router CommercialPaper}
    (built : router config = .ok r) {phase : Phase} {f : String} {h : Handler CommercialPaper}
    (found : (r.table phase).lookup f = some (.chain h)) :
    WritesOnce registry eventRegistry PaperWrite h := by
  rcases route_cases built found with ⟨-, -, routed⟩ | ⟨-, -, routed⟩ | ⟨-, -, routed⟩ |
    ⟨-, -, routed⟩ | ⟨-, -, routed⟩ | ⟨-, -, routed⟩ | ⟨-, -, routed⟩ | ⟨-, -, routed⟩ |
    ⟨-, -, routed⟩ <;> cases routed
  · exact writesOnce_chain [] _ (reads_pure _).frames.keepsLedger.writesOnce
  · exact writesOnce_chain [("issuer", .text), ("number", .text), ("face_value", .u64),
      ("external_id", .text)] _ fun _ _ _ => issue_writesOnce
  · exact writesOnce_chain [("issuer", .text), ("number", .text), ("current_owner", .text),
      ("new_owner", .text)] _ fun _ entities _ => buy_writesOnce entities
  · exact writesOnce_chain [("issuer", .text), ("number", .text), ("owner", .text)] _
      fun _ entities _ => redeem_writesOnce entities
  · exact writesOnce_chain [("issuer", .text), ("number", .text)] _
      fun _ _ _ => erase_writesOnce.bind_keepsLedger fun _ => (reads_pure _).frames.keepsLedger
  · exact writesOnce_chain [("issuer", .text), ("number", .text)] _
      reads_fetch.frames.keepsLedger.writesOnce
  · exact writesOnce_chain [("external_id", .text)] _
      reads_byExternalId.frames.keepsLedger.writesOnce
  · exact writesOnce_chain [] _ reads_listAll.frames.keepsLedger.writesOnce
  · exact writesOnce_chain [("issuer", .text)] _ reads_listByIssuer.frames.keepsLedger.writesOnce

theorem router_no_stub {config : RouterConfig} {r : Router CommercialPaper}
    (built : router config = .ok r) (phase : Phase) (f : String) (h : StubHandler) :
    (r.table phase).lookup f ≠ some (.stub h) := by
  intro found
  rcases route_cases built found with ⟨-, -, routed⟩ | ⟨-, -, routed⟩ | ⟨-, -, routed⟩ |
    ⟨-, -, routed⟩ | ⟨-, -, routed⟩ | ⟨-, -, routed⟩ | ⟨-, -, routed⟩ | ⟨-, -, routed⟩ |
    ⟨-, -, routed⟩ <;> cases routed

/-- Serving any invocation through the contract's router leaves the ledger the transaction starts
with, or the ledger one write the contract allows leaves on it. -/
theorem serve_writesOnce {config : RouterConfig} {r : Router CommercialPaper}
    (built : router config = .ok r) (call : Invocation) (s : Stub) :
    let start := (s.begin call.function call.args).setTimestamp call.timestamp
    start.SameLedger (r.serve call s).2 ∨
      ∃ op, PaperWrite start op ∧
        ((op.run registry).exec start).2.SameLedger (r.serve call s).2 := by
  obtain ⟨-, entities, events⟩ := router_registries built
  have chains : ∀ phase f h, (r.table phase).lookup f = some (.chain h) →
      WritesOnce r.entities r.events PaperWrite h := by
    intro phase f h found
    rw [entities, events]
    exact router_writesOnce built found
  have served := r.serve_writesOnce chains (router_no_stub built) call s
  rw [entities] at served
  exact served

end Chaincode.Paper
