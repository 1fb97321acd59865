import Chaincode.Proofs.Paper.Ledger
import Chaincode.Proofs.CallOutcome
import Chaincode.Proofs.Batch

/-!
# What an invocation of the paper contract answers

On every ledger the contract reaches, an invocation is all or nothing. Each handler checks and
reads before it writes, and makes its one write as a single state operation that, on a ledger
refusing no write, either fails without a change or goes through; what follows the write cannot
fail. So an error response leaves the ledger and the transaction's events as they were.

A success answers as its handler: issuing, buying and redeeming answer the JSON of the paper as
now stored and emit exactly their event (`Issued`, `Bought`, `Redeemed`); reading a paper answers
its JSON as stored (`Fetched`); every other handler emits nothing (`Answered`).
-/

namespace Chaincode.Paper

open Call CommercialPaper

/-! ## Answers -/

/-- The answer is the JSON of a paper now stored under its key, and the one event added is its
issue. -/
def Issued (payload : Bytes) (start final : Stub) : Prop :=
  ∃ p : CommercialPaper, payload = codec.encode p ∧
    final.get? (paperKey p).toComposite = some payload ∧
    final.events = start.events ++
      [⟨"PaperIssued", PaperIssued.codec.encode ⟨p.issuer, p.number, p.faceValue⟩⟩]

/-- A stored paper changed hands: the answer is its JSON with the new owner, now stored under its
key, and the one event added names the previous and the new owner. -/
def Bought (payload : Bytes) (start final : Stub) : Prop :=
  ∃ (p : CommercialPaper) (newOwner : String),
    start.get? (paperKey p).toComposite = some (codec.encode p) ∧
    payload = codec.encode { p with owner := newOwner, state := .trading } ∧
    final.get? (paperKey p).toComposite = some payload ∧
    final.events = start.events ++
      [⟨"PaperBought", PaperBought.codec.encode ⟨p.issuer, p.number, p.owner, newOwner⟩⟩]

/-- A stored paper was redeemed: the answer is its JSON back with its issuer, now stored under its
key, and the one event added names its previous owner as redeemer. -/
def Redeemed (payload : Bytes) (start final : Stub) : Prop :=
  ∃ p : CommercialPaper, start.get? (paperKey p).toComposite = some (codec.encode p) ∧
    payload = codec.encode { p with owner := p.issuer, state := .redeemed } ∧
    final.get? (paperKey p).toComposite = some payload ∧
    final.events = start.events ++
      [⟨"paper.redeemed", PaperRedeemed.codec.encode ⟨p.issuer, p.number, p.owner⟩⟩]

/-- Nothing changed, and the answer is the JSON of a paper as stored under its key. -/
def Fetched (payload : Bytes) (start final : Stub) : Prop :=
  final = start ∧ ∃ p : CommercialPaper, payload = codec.encode p ∧
    final.get? (paperKey p).toComposite = some payload

/-- What a successful invocation of a name in a phase answers: an initialisation changes nothing,
issuing, buying, redeeming and reading answer as above, and every other name emits nothing. -/
def Answered : Phase → String → Bytes → Stub → Stub → Prop
  | .init, _ => fun _ start final => final = start
  | .invoke, "paper.issue" => Issued
  | .invoke, "paper.buy" => Bought
  | .invoke, "paper.redeem" => Redeemed
  | .invoke, "paper.get" => Fetched
  | .invoke, "paper.byExternalId" => Fetched
  | .invoke, _ => fun _ start final => final.events = start.events

/-- The stubs whose ledger holds a store of sound papers. -/
def Ledgered (s : Stub) : Prop := ∃ M, PaperLedger M s

/-! ## The ledger's papers -/

namespace PaperLedger

variable {M : Store CommercialPaper} {s : Stub}

/-- A stored paper's JSON is under its key. -/
theorem get?_of_mem (inv : PaperLedger M s) {p : CommercialPaper} (stored : (paperKey p, p) ∈ M) :
    s.get? (paperKey p).toComposite = some (codec.encode p) := by
  have listed : p ∈ M.map Prod.snd := List.mem_map.mpr ⟨(paperKey p, p), stored, rfl⟩
  have entry : Entry p (paperKey p).toComposite (codec.encode p) := .inl ⟨rfl, rfl⟩
  exact inv.get?_eq_some_iff.mpr ⟨p, listed, entry⟩

/-- A paper read through an identifier has its JSON under its key. -/
theorem get?_of_read (inv : PaperLedger M s) {id : Key} {p : CommercialPaper}
    (read : ((LedgerOp.getEntity registry CommercialPaper.kind id).exec s).1 = .ok p) :
    s.get? (paperKey p).toComposite = some (codec.encode p) :=
  inv.get?_of_mem (inv.mem_of_read read)

/-- A paper read through its external identifier is stored under its key: the index entry it
went through is the external identifier's entry of a stored paper, which names that paper's
key. -/
theorem mem_of_getByUnique (inv : PaperLedger M s) {value : Key} {p : CommercialPaper}
    (read : ((LedgerOp.getByUnique registry kind "ExternalId" value).exec s).1 = .ok p) :
    (paperKey p, p) ∈ M := by
  have mem : mapping ∈ registry.mappings := mem_registry.mpr rfl
  have has : mapping.uniqueKeys.head (List.cons_ne_nil _ _) ∈ mapping.uniqueKeys :=
    List.head_mem _
  obtain ⟨index, b, text, key, composed, found, decoded, parsed, readKey⟩ :=
    LedgerOp.getByUnique_eq_ok s registry_wellFormed mem has read
  obtain ⟨q, listed, entry⟩ := inv.get?_eq_some_iff.mp found
  obtain ⟨⟨key', q⟩, storedQ, rfl⟩ := List.mem_map.mp listed
  have keyedQ := inv.key_of_mem storedQ
  obtain rfl := key_of_primaryKey keyedQ
  dsimp only at entry
  rcases entry with ⟨primary, -⟩ | ⟨-, named⟩
  · -- a primary key is apart from every index key
    exact absurd primary.symm
      (primary_ne_index registry_wellFormed mem mem has keyedQ composed)
  · rw [named, Text.Utf8.decode_ofString] at decoded
    cases decoded
    rw [Key.ofComposite?_toComposite (show (paperKey q).segments ≠ [] from List.cons_ne_nil _ _)
      (separatorFree_of_keyFor registry_wellFormed mem keyedQ)] at parsed
    cases parsed
    have stored := inv.refines.mem_of_readAt registry_wellFormed inv.roundTrips mem keyedQ readKey
    rwa [← key_of_primaryKey (inv.key_of_mem stored)]

end PaperLedger

/-- A write of a paper that the ledger admits stores the paper's JSON under its key. -/
theorem stored_of_admitted {s : Stub} {p : CommercialPaper} {fresh : Bool} {key : Key}
    {indexes : List Key} (admitted : LedgerOp.Admitted registry kind p s fresh key indexes) :
    key = paperKey p ∧
      (s.store key (codec.encode p) indexes).get? (paperKey p).toComposite =
        some (codec.encode p) := by
  obtain ⟨m, found, keyed, -⟩ := admitted.registered
  have mem := (Registry.mem_of_mapping_eq_ok (Registry.mapping_eq_ok_iff.mpr found)).1
  rw [mem_registry.mp mem] at keyed
  obtain rfl : key = paperKey p := key_of_primaryKey keyed
  have stored := LedgerOp.get?_store_of_admitted registry_wellFormed admitted
  rw [show kind.codec = codec from rfl] at stored
  exact ⟨rfl, stored⟩

/-- On a ledger that refuses no write, an insert of a paper fails without a change or stores
it. -/
theorem exec_insert_paper {s : Stub} (free : s.failing = []) (p : CommercialPaper) :
    (∃ e, (LedgerOp.insert registry kind p).exec s = (.error e, s)) ∨
      ∃ indexes, (LedgerOp.insert registry kind p).exec s =
        (.ok (), s.store (paperKey p) (codec.encode p) indexes) ∧
        s.get? (paperKey p).toComposite = none ∧
        (s.store (paperKey p) (codec.encode p) indexes).get? (paperKey p).toComposite =
          some (codec.encode p) := by
  rw [LedgerOp.exec_insert free]
  cases planned : LedgerOp.insertPlan registry kind p s with
  | error e => exact .inl ⟨e, rfl⟩
  | ok plan =>
    obtain ⟨key, indexes⟩ := plan
    rw [LedgerOp.insertPlan_eq_writePlan] at planned
    have admitted := LedgerOp.writePlan_eq_ok_iff.mp planned
    obtain ⟨rfl, stored⟩ := stored_of_admitted admitted
    obtain ⟨m, -, -, absent, -⟩ := admitted.registered
    exact .inr ⟨indexes, rfl, absent rfl, stored⟩

/-- On a ledger that refuses no write, a put of a paper fails without a change or stores it. -/
theorem exec_put_paper {s : Stub} (free : s.failing = []) (p : CommercialPaper) :
    (∃ e, (LedgerOp.put registry kind p).exec s = (.error e, s)) ∨
      ∃ indexes, (LedgerOp.put registry kind p).exec s =
        (.ok (), s.store (paperKey p) (codec.encode p) indexes) ∧
        (s.store (paperKey p) (codec.encode p) indexes).get? (paperKey p).toComposite =
          some (codec.encode p) := by
  rw [LedgerOp.exec_put free]
  cases planned : LedgerOp.putPlan registry kind p s with
  | error e => exact .inl ⟨e, rfl⟩
  | ok plan =>
    obtain ⟨key, indexes⟩ := plan
    rw [LedgerOp.putPlan_eq_writePlan] at planned
    obtain ⟨rfl, stored⟩ := stored_of_admitted (LedgerOp.writePlan_eq_ok_iff.mp planned)
    exact .inr ⟨indexes, rfl, stored⟩

/-- The contract's events go out under their registered names. -/
theorem nameOf_paperIssued :
    eventRegistry.nameOf PaperIssued.codec.typeName = some "PaperIssued" := rfl

theorem nameOf_paperBought :
    eventRegistry.nameOf PaperBought.codec.typeName = some "PaperBought" := rfl

theorem nameOf_paperRedeemed :
    eventRegistry.nameOf PaperRedeemed.codec.typeName = some "paper.redeemed" := rfl

/-! ## Handlers -/

section Handlers

variable {ctx : Context CommercialPaper}

/-- The run of a call that answers a value at once. -/
theorem answered_pure {β : Type} {b b' : β} {ctx' : Context CommercialPaper}
    (answered : (pure b : PaperCall β).run.run ctx = (.ok b', ctx')) : b' = b ∧ ctx' = ctx := by
  cases answered
  exact ⟨rfl, rfl⟩

/-- Issuing fails without a change, or stores the paper it answers and emits its issue. -/
theorem issue_settles : Settles registry eventRegistry Ledgered Issued issue := by
  intro ctx entities events ⟨M, inv⟩
  rw [issue]
  simp only [apply_eq_withRegistries]
  refine SettlesFrom.read_bind (reads_arg _ _) fun issuer _ => ?_
  refine SettlesFrom.read_bind (reads_arg _ _) fun number _ => ?_
  refine SettlesFrom.read_bind (reads_arg _ _) fun owner _ => ?_
  refine SettlesFrom.read_bind (reads_arg _ _) fun faceValue _ => ?_
  refine SettlesFrom.read_bind (reads_arg _ _) fun externalId _ => ?_
  refine SettlesFrom.read_bind reads_time fun t _ => ?_
  -- the batch inserts the paper, then emits its issue under the registered name
  refine SettlesFrom.withRegistries_bind_of ?_
  rw [entities, events]
  rcases exec_insert_paper inv.refines.failing
      ⟨issuer, number, owner, faceValue, externalId, .issued, some t⟩ with
    ⟨e, refused⟩ | ⟨indexes, inserted, -, stored⟩
  · exact .inl ⟨e, Batch.exec_apply_single_of_error refused⟩
  · refine .inr ⟨(), _, Batch.exec_apply_single_typed nameOf_paperIssued inserted, _, _, rfl, ?_⟩
    refine ⟨_, rfl, ?_, ?_⟩
    · rw [(Stub.sameLedger_emit _ _ _).get?_eq]
      exact stored
    · rw [Stub.events_emit, Stub.events_store, Payload.bytes_of]

/-- Emitting a registered event, then answering, appends the event under its registered
name. -/
theorem run_emit_bind_pure {β : Type} (events : ctx.events = eventRegistry) {p : Payload}
    {name : String} (named : eventRegistry.nameOf p.typeName = some name) (b : β) :
    (withRegistries (fun _ events => LedgerOp.emit events p) >>= fun _ =>
        (pure b : PaperCall β)).run.run ctx =
      (.ok b, { ctx with stub := ctx.stub.emit name p.bytes }) := by
  rw [run_bind, run_withRegistries, events]
  unfold LedgerOp.emit
  rw [named]
  rfl

/-- Buying fails without a change, or puts back the paper it read with the new owner, answers it
and emits the sale. -/
theorem buy_settles : Settles registry eventRegistry Ledgered Bought buy := by
  intro ctx entities events ⟨M, inv⟩
  rw [buy]
  simp only [withState_eq]
  refine SettlesFrom.read_bind reads_paperId fun id _ => ?_
  refine SettlesFrom.read_bind (reads_getEntity id) fun p fetched => ?_
  have read := exec_of_run_withRegistries fetched
  rw [entities] at read
  have found := inv.get?_of_read read
  refine SettlesFrom.read_bind (reads_arg _ _) fun current _ => ?_
  split
  · exact SettlesFrom.throw_bind _ _
  · split
    · exact SettlesFrom.throw_bind _ _
    · refine SettlesFrom.read_bind (reads_arg _ _) fun newOwner _ => ?_
      refine SettlesFrom.withRegistries_bind_of ?_
      rw [entities]
      rcases exec_put_paper inv.refines.failing { p with owner := newOwner, state := .trading } with
        ⟨e, refused⟩ | ⟨indexes, put, stored⟩
      · exact .inl ⟨e, refused⟩
      -- the sale is emitted after the put, under its registered name
      · refine .inr ⟨(), _, put, _, _, run_emit_bind_pure (by exact events) nameOf_paperBought _, ?_⟩
        refine ⟨p, newOwner, found, rfl, ?_, ?_⟩
        · rw [(Stub.sameLedger_emit _ _ _).get?_eq]
          exact stored
        · rw [Stub.events_emit, Stub.events_store, Payload.bytes_of]

/-- Redeeming fails without a change, or puts back the paper it read with its issuer as owner,
answers it and emits the redemption by its owner. -/
theorem redeem_settles : Settles registry eventRegistry Ledgered Redeemed redeem := by
  intro ctx entities events ⟨M, inv⟩
  rw [redeem]
  simp only [withState_eq, apply_eq_withRegistries]
  refine SettlesFrom.read_bind reads_paperId fun id _ => ?_
  refine SettlesFrom.read_bind (reads_getEntity id) fun p fetched => ?_
  have read := exec_of_run_withRegistries fetched
  rw [entities] at read
  have found := inv.get?_of_read read
  refine SettlesFrom.read_bind (reads_arg _ _) fun redeemer _ => ?_
  split
  · exact SettlesFrom.throw_bind _ _
  · next owned =>
    -- past the check, the redeemer is the paper's owner
    obtain rfl : p.owner = redeemer := not_not.mp owned
    split
    · exact SettlesFrom.throw_bind _ _
    · refine SettlesFrom.withRegistries_bind_of ?_
      rw [entities, events]
      rcases exec_put_paper inv.refines.failing { p with owner := p.issuer, state := .redeemed } with
        ⟨e, refused⟩ | ⟨indexes, put, stored⟩
      · exact .inl ⟨e, Batch.exec_apply_single_of_error refused⟩
      · refine .inr ⟨(), _, Batch.exec_apply_single_typed nameOf_paperRedeemed put, _, _, rfl, ?_⟩
        refine ⟨p, found, rfl, ?_, ?_⟩
        · rw [(Stub.sameLedger_emit _ _ _).get?_eq]
          exact stored
        · rw [Stub.events_emit, Stub.events_store, Payload.bytes_of]

/-- Deleting a paper on a ledger of sound papers fails without a change, or goes through and
emits nothing: the deleted paper's external identifier forms its index key. -/
theorem exec_delete_paper {M : Store CommercialPaper} {s : Stub} (inv : PaperLedger M s)
    (id : Key) :
    (∃ e, (LedgerOp.delete registry kind id).exec s = (.error e, s)) ∨
      ∃ s', (LedgerOp.delete registry kind id).exec s = (.ok (), s') ∧ s'.events = s.events := by
  cases planned : LedgerOp.deletePlan registry kind id s with
  | error e => exact .inl ⟨e, LedgerOp.exec_delete_of_error planned⟩
  | ok plan =>
    obtain ⟨m, key, stored⟩ := plan
    obtain ⟨s', deleted, -⟩ :=
      inv.refines.exec_delete registry_wellFormed inv.roundTrips registry_typed planned
    have kept := (LedgerOp.entriesOnly_delete registry kind id).events_eq s
    rw [deleted] at kept
    exact .inr ⟨s', deleted, kept⟩

/-- Deleting fails without a change, or goes through and emits nothing. -/
theorem erase_settles :
    Settles registry eventRegistry Ledgered (fun _ start final => final.events = start.events)
      (do erase; pure [] : PaperCall Bytes) := by
  intro ctx entities events ⟨M, inv⟩
  simp only [erase, withState_eq, bind_assoc]
  refine SettlesFrom.read_bind reads_paperId fun id _ => ?_
  refine SettlesFrom.withRegistries_bind_of ?_
  rw [entities]
  rcases exec_delete_paper inv id with ⟨e, refused⟩ | ⟨s', deleted, kept⟩
  · exact .inl ⟨e, refused⟩
  · exact .inr ⟨(), s', deleted, _, _, rfl, kept⟩

/-- Reading a paper answers its JSON as stored. -/
theorem fetch_settles : Settles registry eventRegistry Ledgered Fetched fetch := by
  intro ctx entities events ⟨M, inv⟩
  rw [fetch]
  simp only [withState_eq]
  refine SettlesFrom.read_bind reads_paperId fun id _ => ?_
  refine SettlesFrom.read_bind (reads_getEntity id) fun p fetched => ?_
  have read := exec_of_run_withRegistries fetched
  rw [entities] at read
  refine (reads_pure _).settlesFrom fun b answered => ?_
  obtain ⟨answer, -⟩ := answered_pure answered
  rw [answer]
  exact ⟨rfl, p, rfl, inv.get?_of_read read⟩

/-- Reading a paper by its external identifier answers its JSON as stored. -/
theorem byExternalId_settles : Settles registry eventRegistry Ledgered Fetched byExternalId := by
  intro ctx entities events ⟨M, inv⟩
  rw [byExternalId]
  simp only [withState_eq]
  refine SettlesFrom.read_bind (reads_arg _ _) fun value _ => ?_
  refine SettlesFrom.read_bind (reads_withRegistries fun reg _ =>
    LedgerOp.readOnly_getByUnique reg _ _ _) fun p fetched => ?_
  have read := exec_of_run_withRegistries fetched
  rw [entities] at read
  refine (reads_pure _).settlesFrom fun b answered => ?_
  obtain ⟨answer, -⟩ := answered_pure answered
  rw [answer]
  exact ⟨rfl, p, rfl, inv.get?_of_mem (inv.mem_of_getByUnique read)⟩

end Handlers

/-! ## The router -/

/-- A handler of the contract that settles still settles behind the logging and its
parameters. -/
theorem settles_chain {done : Bytes → Stub → Stub → Prop} {h : Handler CommercialPaper}
    (params : List (String × Plain)) (strict : Bool)
    (handler : Settles registry eventRegistry Ledgered done h) :
    Settles registry eventRegistry Ledgered done
      (compose h [Middleware.logging] (params.map fun p => .param p.1 p.2) strict) := by
  rw [params_toMiddleware]
  exact Settles.compose [Link.log] _ strict (logging_params_noChecks params) handler

/-- Every handler the contract's router runs for a name in a phase settles as that name
answers. -/
theorem router_settles {config : RouterConfig} {r : Router CommercialPaper}
    (built : router config = .ok r) {phase : Phase} {f : String} {h : Handler CommercialPaper}
    (found : (r.table phase).lookup f = some (.chain h)) :
    Settles registry eventRegistry Ledgered (Answered phase f) h := by
  -- each route answers for its own phase and name
  rcases route_cases built found with ⟨rfl, rfl, routed⟩ | ⟨rfl, rfl, routed⟩ |
    ⟨rfl, rfl, routed⟩ | ⟨rfl, rfl, routed⟩ | ⟨rfl, rfl, routed⟩ | ⟨rfl, rfl, routed⟩ |
    ⟨rfl, rfl, routed⟩ | ⟨rfl, rfl, routed⟩ | ⟨rfl, rfl, routed⟩ <;> cases routed
  · exact settles_chain [] _ ((reads_pure _).settles fun _ _ => rfl)
  · exact settles_chain [("issuer", .text), ("number", .text), ("face_value", .u64),
      ("external_id", .text)] _ issue_settles
  · exact settles_chain [("issuer", .text), ("number", .text), ("current_owner", .text),
      ("new_owner", .text)] _ buy_settles
  · exact settles_chain [("issuer", .text), ("number", .text), ("owner", .text)] _
      redeem_settles
  · exact settles_chain [("issuer", .text), ("number", .text)] _ erase_settles
  · exact settles_chain [("issuer", .text), ("number", .text)] _ fetch_settles
  · exact settles_chain [("external_id", .text)] _ byExternalId_settles
  · exact settles_chain [] _ (reads_listAll.settles fun _ _ => rfl)
  · exact settles_chain [("issuer", .text)] _ (reads_listByIssuer.settles fun _ _ => rfl)

/-! ## Invocations -/

/-- On every ledger the contract's router reaches, an invocation is all or nothing. The
transaction starts on the ledger as it stands, with no events. An error response leaves that
stub exactly, so no entry changed and no event was emitted. A successful initialisation changes
nothing, and a successful invocation answers as its function does: issuing, buying and redeeming
answer the paper as now stored and emit exactly their one event, reading a paper answers it as
stored, and every other function emits nothing. -/
theorem invocation_all_or_nothing {config : RouterConfig} {r : Router CommercialPaper}
    (built : router config = .ok r) {s : Stub} (reached : Reachable r s) (call : Invocation) :
    let start := (s.begin call.function call.args).setTimestamp call.timestamp
    start.entries = s.entries ∧ start.events = [] ∧
      ((r.serve call s).1.ok = false → (r.serve call s).2 = start) ∧
      ((r.serve call s).1.ok = true →
        (call.init = false →
          Answered .invoke call.function (r.serve call s).1.payload start (r.serve call s).2) ∧
        (call.init = true → (r.serve call s).2 = start)) := by
  intro start
  obtain ⟨-, entities, events⟩ := router_registries built
  obtain ⟨M, inv⟩ := reached.paperLedger built
  -- the transaction starts on the ledger reached
  have holds : Ledgered start :=
    ⟨M, inv.of_sameLedger (Stub.sameLedger_begin s call.function call.args call.timestamp)⟩
  have chains : ∀ phase f h, (r.table phase).lookup f = some (.chain h) →
      Settles r.entities r.events Ledgered (Answered phase f) h := by
    intro phase f h found
    rw [entities, events]
    exact router_settles built found
  obtain ⟨fails, answers⟩ := r.serve_settles chains (router_no_stub built) call s holds
  exact ⟨rfl, rfl, fails, fun answered => ⟨(answers answered).1, (answers answered).2⟩⟩

/-- Issuing paper 0001 of ACME, with face value 1000 and external identifier X-1. -/
def issueAcme : Invocation :=
  ⟨false, "paper.issue", ["ACME", "0001", "1000", "X-1"].map Bytes.ofString, ⟨0, 0⟩⟩

theorem issueAcme_on_empty_ledger :
    ∃ r, router RouterConfig.default = .ok r ∧
      let start := (Stub.empty.begin issueAcme.function issueAcme.args).setTimestamp
        issueAcme.timestamp
      start.entries = Stub.empty.entries ∧ start.events = [] ∧
      ((r.serve issueAcme Stub.empty).1.ok = false → (r.serve issueAcme Stub.empty).2 = start) ∧
      ((r.serve issueAcme Stub.empty).1.ok = true →
        (issueAcme.init = false →
          Answered .invoke issueAcme.function (r.serve issueAcme Stub.empty).1.payload start
            (r.serve issueAcme Stub.empty).2) ∧
        (issueAcme.init = true → (r.serve issueAcme Stub.empty).2 = start)) := by
  obtain ⟨r, built⟩ : ∃ r, router RouterConfig.default = .ok r := ⟨_, rfl⟩
  exact ⟨r, built, invocation_all_or_nothing built .empty issueAcme⟩

end Chaincode.Paper
