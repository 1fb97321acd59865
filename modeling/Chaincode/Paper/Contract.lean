import Chaincode.Paper.Types
import Chaincode.Router.Basic

/-!
# The commercial paper contract

Papers are stored under `CommercialPaper/issuer/number`, with a unique index on the external
identifier. The contract serves:

| function | arguments | effect |
|---|---|---|
| `init` | none | answers the contract's name |
| `paper.issue` | issuer, number, face value, external id | stores a new paper owned by its issuer, emits `PaperIssued` |
| `paper.buy` | issuer, number, current owner, new owner | hands the paper over, emits `PaperBought` |
| `paper.redeem` | issuer, number, owner | returns the paper to its issuer, emits `paper.redeemed` |
| `paper.delete` | issuer, number | erases the paper |
| `paper.get` | issuer, number | the paper |
| `paper.byExternalId` | external id | the paper |
| `paper.list` | none | every paper |
| `paper.listByIssuer` | issuer | the papers of one issuer |

Every invocation passes the logging middleware. A paper can change hands only from its current
owner and not once redeemed, and only its owner can redeem it.
-/

namespace Chaincode.Paper

/-- The ledger layout of papers. -/
def mapping : Mapping CommercialPaper :=
  (Mapping.new CommercialPaper.kind "CommercialPaper" ["issuer", "number"]
      fun p => ⟨[p.issuer, p.number]⟩).withUniqueKey "ExternalId" ["external_id"]
    fun p => Key.single p.externalId

/-- The entity registry of the contract. -/
def entityRegistry : Except StateError (Registry CommercialPaper) := Registry.empty.register mapping

/-- The event names of the contract. -/
def eventRegistry : EventRegistry :=
  ((EventRegistry.empty.register PaperIssued.codec.typeName).register
    PaperBought.codec.typeName).registerNamed PaperRedeemed.codec.typeName "paper.redeemed"

/-- A step of a paper invocation. -/
abbrev PaperCall := Call CommercialPaper

/-- Runs a state operation with the invocation's registries. -/
def withState {β : Type} (op : Registry CommercialPaper → EventRegistry → LedgerOp β) :
    PaperCall β := do
  let c ← get
  Call.ledger (op c.entities c.events)

/-- The identifier of the paper named by the bound issuer and number. -/
def paperId : PaperCall Key := do
  return ⟨[← Call.argText "issuer", ← Call.argText "number"]⟩

/-- Issues a paper: stored as new, owned by its issuer, with an issuing event. -/
def issue : PaperCall Bytes := do
  let issuer ← Call.argText "issuer"
  let number ← Call.argText "number"
  let owner ← Call.argText "issuer"
  let faceValue ← Call.arg .u64 "face_value"
  let externalId ← Call.argText "external_id"
  let t ← Call.time
  let paper : CommercialPaper := ⟨issuer, number, owner, faceValue, externalId, .issued, some t⟩
  let batch := (Batch.empty.push (.insert CommercialPaper.kind paper)).setEvent
    (.typed (Payload.of PaperIssued.codec ⟨issuer, number, faceValue⟩))
  Call.apply batch
  return CommercialPaper.codec.encode paper

/-- Hands a paper from its current owner to a new one. -/
def buy : PaperCall Bytes := do
  let id ← paperId
  let paper ← withState fun reg _ => LedgerOp.getEntity reg CommercialPaper.kind id
  let current ← Call.argText "current_owner"
  if paper.owner ≠ current then
    throw (.handler ("paper " ++ paper.issuer ++ "/" ++ paper.number ++ " is not owned by " ++
      current))
  if paper.state = .redeemed then throw (.handler "paper is already redeemed")
  let event : PaperBought := ⟨paper.issuer, paper.number, paper.owner, ← Call.argText "new_owner"⟩
  let paper := { paper with owner := event.buyer, state := .trading }
  withState fun reg _ => LedgerOp.put reg CommercialPaper.kind paper
  withState fun _ events => LedgerOp.emit events (Payload.of PaperBought.codec event)
  return CommercialPaper.codec.encode paper

/-- Redeems a paper: it returns to its issuer, with a redemption event. -/
def redeem : PaperCall Bytes := do
  let id ← paperId
  let paper ← withState fun reg _ => LedgerOp.getEntity reg CommercialPaper.kind id
  let redeemer ← Call.argText "owner"
  if paper.owner ≠ redeemer then throw (.handler (redeemer ++ " does not own the paper"))
  if paper.state = .redeemed then throw (.handler "paper is already redeemed")
  let paper := { paper with owner := paper.issuer, state := .redeemed }
  let batch := (Batch.empty.push (.put CommercialPaper.kind paper)).setEvent
    (.typed (Payload.of PaperRedeemed.codec ⟨paper.issuer, paper.number, redeemer⟩))
  Call.apply batch
  return CommercialPaper.codec.encode paper

/-- Erases a paper. -/
def erase : PaperCall Unit := do
  let id ← paperId
  withState fun reg _ => LedgerOp.delete reg CommercialPaper.kind id

/-- The paper with an issuer and number. -/
def fetch : PaperCall Bytes := do
  let id ← paperId
  let paper ← withState fun reg _ => LedgerOp.getEntity reg CommercialPaper.kind id
  return CommercialPaper.codec.encode paper

/-- The paper with an external identifier. -/
def byExternalId : PaperCall Bytes := do
  let id ← Call.argText "external_id"
  let paper ← withState fun reg _ =>
    LedgerOp.getByUnique reg CommercialPaper.kind "ExternalId" (Key.single id)
  return CommercialPaper.codec.encode paper

/-- Every paper. -/
def listAll : PaperCall Bytes := do
  let papers ← withState fun reg _ => LedgerOp.list reg CommercialPaper.kind
  return CommercialPaper.listCodec.encode papers

/-- The papers of one issuer. -/
def listByIssuer : PaperCall Bytes := do
  let issuer ← Call.argText "issuer"
  let papers ← withState fun reg _ =>
    LedgerOp.listWith reg CommercialPaper.kind (Key.single issuer)
  return CommercialPaper.listCodec.encode papers

/-- A text parameter. -/
def textParam (name : String) : Middleware CommercialPaper := .param name .text

/-- The registrations of the contract. -/
def registrations : List (Registration CommercialPaper) :=
  [.use [Middleware.logging],
   .init (pure (Bytes.ofString "commercial-paper") : PaperCall Bytes) [],
   .group "paper."
    [.invoke "issue" issue
      [textParam "issuer", textParam "number", .param "face_value" .u64, textParam "external_id"],
     .invoke "buy" buy
      [textParam "issuer", textParam "number", textParam "current_owner", textParam "new_owner"],
     .invoke "redeem" redeem [textParam "issuer", textParam "number", textParam "owner"],
     .contextInvoke "delete" erase [textParam "issuer", textParam "number"],
     .invoke "get" fetch [textParam "issuer", textParam "number"],
     .invoke "byExternalId" byExternalId [textParam "external_id"],
     .invoke "list" listAll [],
     .invoke "listByIssuer" listByIssuer [textParam "issuer"]]]

/-- Why the contract's router could not be built. -/
inductive BuildError where
  | state (e : StateError)
  | config (e : ConfigError)

/-- The wording of a build failure. -/
def BuildError.message : BuildError → String
  | .state e => e.message
  | .config e => e.message

/-- The contract's router under a configuration. -/
def router (config : RouterConfig) : Except BuildError (Router CommercialPaper) := do
  let entities ← entityRegistry.mapError .state
  let r ← (Router.withConfig config entities eventRegistry).mapError .config
  return r.registerAll "" registrations

end Chaincode.Paper
