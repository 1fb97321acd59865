import Chaincode.Protocol.Wire

/-!
# Key requests

`key` shows a key in all its forms and reads its ledger encoding back; `key_parse` reads a ledger
encoding; `key_relation` compares a key with another (prefix by segments and by encodings,
equality, order) and combines them (`prepend`, `push`).
-/

namespace Chaincode.Protocol

/-- A key read back from its encoding, or the failure. -/
def readBackJson (r : Except CodecError Key) : JsonValue :=
  match r with
  | .ok k => .object [("segments", keyJson k)]
  | .error e => failure "Decode" e.message

/-- Answers a `key` request. -/
def answerKey (req : JsonValue) : Decode JsonValue := do
  let k ← keyOf req "segments"
  let back := Key.ofComposite? k.toComposite
  return .object [("composite", .string k.toComposite), ("display", .string k.display),
    ("debug", .string k.debug), ("len", .number (.nat k.length)), ("is_empty", .bool k.isEmpty),
    ("roundtrip", readBackJson back),
    ("roundtrip_equal", .bool (match back with
      | .ok k' => k' == k
      | .error _ => false))]

/-- Answers a `key_parse` request. -/
def answerKeyParse (req : JsonValue) : Decode JsonValue := do
  let s ← textOf req "encoded"
  return match Key.ofComposite? s with
    | .ok k => .object [("segments", keyJson k), ("display", .string k.display),
        ("composite", .string k.toComposite)]
    | .error e => failure "Decode" e.message

/-- The name of an ordering. -/
def orderingName : Ordering → String
  | .lt => "less"
  | .eq => "equal"
  | .gt => "greater"

/-- Answers a `key_relation` request. -/
def answerKeyRelation (req : JsonValue) : Decode JsonValue := do
  let k ← keyOf req "key"
  let p ← keyOf req "prefix"
  return .object [("starts_with", .bool (k.startsWith p)),
    ("composite_starts_with", .bool (k.compositeStartsWith p)),
    ("equal", .bool (k == p)),
    ("order", .string (orderingName (compare k p))),
    ("prepend", match p.segments with
      | ns :: _ => keyJson (k.prepend ns)
      | [] => .null),
    ("pushed", keyJson (p.segments.foldl Key.push k))]

end Chaincode.Protocol
