import Chaincode.Bytes

/-!
# Codecs

Every value that is stored, emitted or bound from an argument has a codec: a name for its type,
an encoding into bytes, and a decoding that may fail. Encoding never fails for the types of this
library, so it is a plain function. A decoding failure names the type and gives the reason.
-/

namespace Chaincode

/-- Why a value could not be turned into bytes or read back from them. -/
inductive CodecError where
  | encode (typeName reason : String)
  | decode (typeName reason : String)
  deriving DecidableEq, Repr

/-- The wording of a codec failure: the direction, the type and the reason. -/
def CodecError.message : CodecError → String
  | .encode t r => "cannot encode " ++ t ++ ": " ++ r
  | .decode t r => "cannot decode " ++ t ++ ": " ++ r

/-- How values of a type become bytes and are read back. -/
structure Codec (α : Type) where
  /-- The full name of the type, as failures report it. -/
  typeName : String
  encode : α → Bytes
  decode : Bytes → Except CodecError α

/-- The last path component of a type name, with any generic arguments dropped:
`core::option::Option<u64>` is `Option`, `cc_tests::paper::CommercialPaper` is
`CommercialPaper`. -/
def shortTypeName (full : String) : String :=
  let base := (full.toList.takeWhile (· ≠ '<'))
  String.ofList (base.reverse.takeWhile (· ≠ ':')).reverse

namespace Codec

/-- The short name of the codec's type. -/
def shortName {α : Type} (c : Codec α) : String := shortTypeName c.typeName

end Codec

end Chaincode
