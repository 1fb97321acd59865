import Chaincode.Protocol.Keys
import Chaincode.Protocol.Settings
import Chaincode.Protocol.Values
import Chaincode.Protocol.StateRun
import Chaincode.Protocol.Calls
import Chaincode.Json.Reader

/-!
# Answering requests

Every request names its operation in `op`; `answer` dispatches on it. A malformed request is
answered with the refusal, and a line that is not JSON with the reader's failure.
-/

namespace Chaincode.Protocol

/-- The answer to a request that may be malformed. -/
def settle (r : Decode JsonValue) : JsonValue :=
  match r with
  | .ok v => v
  | .error e => e.toJson

/-- Answers a request. -/
def answer (req : JsonValue) : JsonValue :=
  match member req "op" with
  | .string "key" => settle (answerKey req)
  | .string "key_parse" => settle (answerKeyParse req)
  | .string "key_relation" => settle (answerKeyRelation req)
  | .string "decode" => settle (answerDecode req)
  | .string "encode" => settle (answerEncode req)
  | .string "config" => answerConfig req
  | .string "telemetry" => answerTelemetry req
  | .string "stub_error" => settle (answerStubError req)
  | .string "state" => settle (answerState req)
  | .string "router" => settle (answerRouter req)
  | .string "paper" => answerPaper req
  | .string op => (RequestError.mk ("unknown op " ++ quoted op)).toJson
  | _ => (RequestError.mk "missing op").toJson

/-- Answers one request line: its JSON is read, answered and written compactly. -/
def answerLine (line : String) : String :=
  match Json.parseValue (Bytes.ofString line) with
  | .ok req => (answer req).render
  | .error e => (RequestError.mk ("bad request json: " ++ e.message)).toJson.render

end Chaincode.Protocol
