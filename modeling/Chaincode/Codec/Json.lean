import Chaincode.Codec.Basic
import Chaincode.Json.Shape

/-!
# JSON codecs

Structured values are stored as compact JSON of their shape. Decoding reads the JSON under the
shape, so a failure is a reading failure with its line and column, reported under the type's
name.
-/

namespace Chaincode

/-- A codec whose encoding is the compact JSON of a shape. -/
def Codec.json {α : Type} (typeName : String) (shape : Json.Shape) (toDatum : α → Json.Datum)
    (ofDatum : Json.Datum → α) : Codec α where
  typeName := typeName
  encode v := Bytes.ofString (toDatum v).toJson.render
  decode b :=
    match shape.parse b with
    | .ok d => .ok (ofDatum d)
    | .error e => .error (.decode typeName e.message)

end Chaincode
