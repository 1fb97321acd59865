import Chaincode.Codec.Json
import Chaincode.Entity

/-!
# Commercial paper

A commercial paper is a debt instrument identified by its issuer and number. It has an owner, a
face value, an external identifier that is unique across papers, a lifecycle state (issued, then
trading, then redeemed) and the time it was issued. Issuing, buying and redeeming a paper each
emit an event.

All of them are stored and emitted as JSON records with their fields in declaration order.
-/

namespace Chaincode.Paper

open Json

/-- Where a paper is in its life. -/
inductive PaperState where
  | issued
  | trading
  | redeemed
  deriving DecidableEq, Repr

namespace PaperState

/-- The written names of the states. -/
def names : List String := ["Issued", "Trading", "Redeemed"]

/-- The written name. -/
def name : PaperState → String
  | .issued => "Issued"
  | .trading => "Trading"
  | .redeemed => "Redeemed"

/-- The state of a written name; unknown names are not read, so any fallback is unreachable. -/
def ofName : String → PaperState
  | "Trading" => .trading
  | "Redeemed" => .redeemed
  | _ => .issued

end PaperState

/-- A commercial paper. -/
structure CommercialPaper where
  issuer : String
  number : String
  owner : String
  faceValue : UInt64
  externalId : String
  state : PaperState
  issuedAt : Option Timestamp
  deriving DecidableEq, Repr

/-- The event of issuing a paper. -/
structure PaperIssued where
  issuer : String
  number : String
  faceValue : UInt64
  deriving DecidableEq, Repr

/-- The event of a paper changing hands. -/
structure PaperBought where
  issuer : String
  number : String
  seller : String
  buyer : String
  deriving DecidableEq, Repr

/-- The event of redeeming a paper. -/
structure PaperRedeemed where
  issuer : String
  number : String
  redeemer : String
  deriving DecidableEq, Repr

/-- The JSON form of a paper. -/
def paperShape : Shape :=
  .record "CommercialPaper" [("issuer", .text), ("number", .text), ("owner", .text),
    ("face_value", .nat64), ("external_id", .text), ("state", .variants PaperState.names),
    ("issued_at", .optional .instant)]

/-- The JSON form of an issuing event. -/
def issuedShape : Shape :=
  .record "PaperIssued" [("issuer", .text), ("number", .text), ("face_value", .nat64)]

/-- The JSON form of a sale event. -/
def boughtShape : Shape :=
  .record "PaperBought" [("issuer", .text), ("number", .text), ("from", .text), ("to", .text)]

/-- The JSON form of a redemption event. -/
def redeemedShape : Shape :=
  .record "PaperRedeemed" [("issuer", .text), ("number", .text), ("by", .text)]

/-- The JSON form of a list of papers. -/
def paperListShape : Shape := .record "EntityList" [("items", .sequence paperShape)]

/-- The natural number of a datum. -/
def natOf : Option Datum → Nat
  | some (.nat n) => n
  | _ => 0

/-- The text of a datum. -/
def textOf : Option Datum → String
  | some (.text s) => s
  | _ => ""

namespace CommercialPaper

/-- The datum of a paper. -/
def toDatum (p : CommercialPaper) : Datum :=
  .record [("issuer", .text p.issuer), ("number", .text p.number), ("owner", .text p.owner),
    ("face_value", .nat p.faceValue.toNat), ("external_id", .text p.externalId),
    ("state", .variant p.state.name),
    ("issued_at", match p.issuedAt with
      | some t => .some (.instant t)
      | none => .none)]

/-- The paper of a datum of its shape. -/
def ofDatum (d : Datum) : CommercialPaper where
  issuer := textOf (d.field? "issuer")
  number := textOf (d.field? "number")
  owner := textOf (d.field? "owner")
  faceValue := (natOf (d.field? "face_value")).toUInt64
  externalId := textOf (d.field? "external_id")
  state := match d.field? "state" with
    | some (.variant n) => PaperState.ofName n
    | _ => .issued
  issuedAt := match d.field? "issued_at" with
    | some (.some (.instant t)) => some t
    | _ => none

/-- A paper with nothing filled in. -/
def blank : CommercialPaper := ⟨"", "", "", 0, "", .issued, none⟩

/-- A paper needs an owner and a positive face value. -/
def validate (p : CommercialPaper) : Except ValidationError Unit :=
  if p.owner.isEmpty then .error ⟨"owner is required"⟩
  else if p.faceValue = 0 then .error ⟨"face value must be positive"⟩
  else .ok ()

/-- How papers are stored. -/
def codec : Codec CommercialPaper :=
  Codec.json "cc_tests::paper::CommercialPaper" paperShape toDatum ofDatum

/-- Papers as an entity type. -/
def kind : EntityKind CommercialPaper := ⟨codec, validate, blank⟩

/-- How lists of papers are written. -/
def listCodec : Codec (List CommercialPaper) :=
  Codec.json "cc_01_state_mapping::domain::entity::EntityList<cc_tests::paper::CommercialPaper>"
    paperListShape
    (fun ps => .record [("items", .sequence (ps.map toDatum))])
    (fun d => match d.field? "items" with
      | some (.sequence items) => items.map ofDatum
      | _ => [])

end CommercialPaper

/-- How issuing events are written. -/
def PaperIssued.codec : Codec PaperIssued :=
  Codec.json "cc_tests::paper::PaperIssued" issuedShape
    (fun e => .record [("issuer", .text e.issuer), ("number", .text e.number),
      ("face_value", .nat e.faceValue.toNat)])
    (fun d => ⟨textOf (d.field? "issuer"), textOf (d.field? "number"),
      (natOf (d.field? "face_value")).toUInt64⟩)

/-- How sale events are written. -/
def PaperBought.codec : Codec PaperBought :=
  Codec.json "cc_tests::paper::PaperBought" boughtShape
    (fun e => .record [("issuer", .text e.issuer), ("number", .text e.number),
      ("from", .text e.seller), ("to", .text e.buyer)])
    (fun d => ⟨textOf (d.field? "issuer"), textOf (d.field? "number"), textOf (d.field? "from"),
      textOf (d.field? "to")⟩)

/-- How redemption events are written. -/
def PaperRedeemed.codec : Codec PaperRedeemed :=
  Codec.json "cc_tests::paper::PaperRedeemed" redeemedShape
    (fun e => .record [("issuer", .text e.issuer), ("number", .text e.number),
      ("by", .text e.redeemer)])
    (fun d => ⟨textOf (d.field? "issuer"), textOf (d.field? "number"), textOf (d.field? "by")⟩)

end Chaincode.Paper
