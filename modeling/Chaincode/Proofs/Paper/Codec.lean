import Chaincode.Proofs.JsonText
import Chaincode.Paper.Types

/-!
# Papers read back from their JSON

A paper is stored as a JSON record with its seven fields in declaration order: texts, the face
value as a number, the state by its name and the issuing instant as an RFC 3339 text or `null`.
Every instant a clock can give is valid, and a paper whose instant is valid reads back from its
record exactly.
-/

namespace Chaincode

/-- A JSON codec writes the compact form of a value's datum. -/
theorem Codec.json_encode {α : Type} (typeName : String) (shape : Json.Shape)
    (toDatum : α → Json.Datum) (ofDatum : Json.Datum → α) (v : α) :
    (Codec.json typeName shape toDatum ofDatum).encode v = Bytes.ofString (toDatum v).toJson.render :=
  rfl

end Chaincode

namespace Chaincode.Paper

open Json

theorem PaperState.name_mem (st : PaperState) : st.name ∈ PaperState.names := by
  cases st <;> simp [PaperState.name, PaperState.names]

@[simp] theorem PaperState.ofName_name (st : PaperState) : PaperState.ofName st.name = st := by
  cases st <;> rfl

namespace CommercialPaper

/-- A paper's datum gives the paper back. -/
@[simp] theorem ofDatum_toDatum (p : CommercialPaper) : ofDatum (toDatum p) = p := by
  obtain ⟨issuer, number, owner, faceValue, externalId, state, issuedAt⟩ := p
  cases issuedAt <;> simp [ofDatum, toDatum, Datum.field?, textOf, natOf, List.lookup_cons]

/-- A paper's issuing instant, when valid, is a value of the optional instant's shape. -/
theorem fieldValue_issuedAt {p : CommercialPaper} (valid : ∀ t, p.issuedAt = some t → t.Valid) :
    FieldValue (.optional .instant)
      (match p.issuedAt with
        | some t => .some (.instant t)
        | none => .none) := by
  cases stamped : p.issuedAt with
  | none => exact .none .instant
  | some t => exact .some (.instant (valid t stamped))

/-- The record of a paper parses as the paper's datum: each field is a value of its shape, the
face value below 2^64 and the state one of the written names. -/
theorem parse_encode {p : CommercialPaper} (valid : ∀ t, p.issuedAt = some t → t.Valid) :
    paperShape.parse (codec.encode p) = .ok (toDatum p) := by
  -- the record and its shape written out, so that the record lemma matches without unfolding
  rw [codec, Codec.json_encode, paperShape, toDatum]
  exact Shape.parse_record "CommercialPaper" (by decide)
    (.cons ⟨rfl, .scalar (.text p.issuer)⟩ <| .cons ⟨rfl, .scalar (.text p.number)⟩ <|
      .cons ⟨rfl, .scalar (.text p.owner)⟩ <|
      .cons ⟨rfl, .scalar (.nat p.faceValue.toNat_lt)⟩ <|
      .cons ⟨rfl, .scalar (.text p.externalId)⟩ <|
      .cons ⟨rfl, .scalar (.variant p.state.name_mem)⟩ <|
      .cons ⟨rfl, fieldValue_issuedAt valid⟩ .nil)
    (List.cons_ne_nil _ _)

/-- A paper whose instant is valid decodes from what it encodes to. -/
theorem decode_encode {p : CommercialPaper} (valid : ∀ t, p.issuedAt = some t → t.Valid) :
    codec.decode (codec.encode p) = .ok p := by
  have parsed := parse_encode valid
  rw [codec, Codec.json] at parsed ⊢
  simp only [parsed, ofDatum_toDatum]

end CommercialPaper

end Chaincode.Paper
