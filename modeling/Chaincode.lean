import Chaincode.Bytes
import Chaincode.Text.Utf8
import Chaincode.Text.Blank
import Chaincode.Text.Quoted
import Chaincode.Codec.Plain
import Chaincode.Key
import Chaincode.Time.Parse
import Chaincode.Number.Shortest
import Chaincode.Json.Value
import Chaincode.Json.Error
import Chaincode.Json.Reader
import Chaincode.Json.Shape
import Chaincode.Stub
import Chaincode.Entity
import Chaincode.State.Error
import Chaincode.Mapping
import Chaincode.Registry
import Chaincode.Event
import Chaincode.State.Basic
import Chaincode.Batch
import Chaincode.Json.Decode
import Chaincode.Router.Config
import Chaincode.Router.Error
import Chaincode.Router.Context
import Chaincode.Router.Middleware
import Chaincode.Router.Basic
import Chaincode.Telemetry
import Chaincode.Codec.Json
import Chaincode.Paper.Types
import Chaincode.Paper.Contract
import Chaincode.Protocol.Wire
import Chaincode.Protocol.Fixtures
import Chaincode.Protocol.Values
import Chaincode.Protocol.Keys
import Chaincode.Protocol.Settings
import Chaincode.Protocol.Answer
import Chaincode.Protocol.Steps
import Chaincode.Protocol.StateRun
import Chaincode.Protocol.Handlers
import Chaincode.Protocol.Calls
import Chaincode.Proofs.Key
import Chaincode.Proofs.TextOrder
import Chaincode.Proofs.KeyOrder
import Chaincode.Proofs.Middleware
import Chaincode.Proofs.Dispatch
import Chaincode.Proofs.Mapping
import Chaincode.Proofs.Registry
import Chaincode.Proofs.Utf8
import Chaincode.Proofs.State.Exec
import Chaincode.Proofs.State.Index
import Chaincode.Proofs.State.Refinement
import Chaincode.Proofs.CallLedger
import Chaincode.Proofs.JsonText
import Chaincode.Proofs.Paper.Codec
import Chaincode.Proofs.Paper.Handlers
import Chaincode.Proofs.Paper.Ledger
import Chaincode.Proofs.State.Writes
import Chaincode.Proofs.Batch
import Chaincode.Proofs.CallOutcome
import Chaincode.Proofs.Paper.Outcome
import Chaincode.Proofs.Paper.Lifecycle
import Chaincode.Proofs.IntegerText
import Chaincode.Proofs.PlainCodec
import Chaincode.Proofs.State.Listing
