import Chaincode.Json.Value
import Chaincode.Key
import Chaincode.Stub
import Chaincode.State.Error
import Chaincode.Text.Utf8
import Chaincode.Text.Quoted
import Chaincode.Number.Decimal

/-!
# Wire forms of requests and answers

Requests to the chaincode kit are JSON values, one per line, each answered by one JSON value.
This module holds the forms shared by all requests and the way members are read:

* bytes are a string (its UTF-8 bytes) or an object whose `hex` member holds pairs of hex
  digits, each pair read as an unsigned byte (so `+a` is the byte 10); answers use a string when
  the bytes are UTF-8 and lowercase hex otherwise;
* a key is a list of segment strings, or one string for a one-segment key;
* a list of names is a list of strings, or one string for a list of one;
* a failure is `{"error": kind, "message": text}`, state failures adding whether they blame
  the input;
* the ledger is a list of `[composite key, bytes]` in key order, and the events a list of
  `{"name", "payload"}` in emission order;
* JSON built from a request and written into payload bytes holds its objects as maps, members
  sorted by name.

Members are read leniently: a list member that is not a list has no items, an optional string
member that is not a string is absent. Members a request cannot do
without are refused with a message naming them, quoted as diagnostics quote names.
-/

namespace Chaincode.Protocol

/-- A request that does not have the expected form. -/
structure RequestError where
  message : String

/-- Decoding a request: a value, or the refusal of a malformed request. -/
abbrev Decode := Except RequestError

/-- Refuses a malformed request. -/
def refuse {β : Type} (message : String) : Decode β := .error ⟨message⟩

/-- A name quoted as diagnostics quote it. -/
def quoted (name : String) : String := Text.quote name

/-- A member of a request object; `null` when absent. -/
def member (v : JsonValue) (name : String) : JsonValue := (v.field? name).getD .null

/-- A member that is present and not `null`. -/
def optMember (v : JsonValue) (name : String) : Option JsonValue :=
  match v.field? name with
  | some .null | none => none
  | some w => some w

/-- A string member, when it is one. -/
def text? (v : JsonValue) (name : String) : Option String :=
  match v.field? name with
  | some (.string s) => some s
  | _ => none

/-- A string member, or the empty text when it is absent or not a string. -/
def textOr (v : JsonValue) (name : String) : String := (text? v name).getD ""

/-- A string member the request cannot do without. -/
def textOf (v : JsonValue) (name : String) : Decode String :=
  match text? v name with
  | some s => pure s
  | none => refuse ("missing string field " ++ quoted name)

/-- The items of a list member; a member that is not a list has none. -/
def itemsOf (v : JsonValue) (name : String) : List JsonValue :=
  match v.field? name with
  | some (.array items) => items
  | _ => []

/-- The items of a list member that may be left out; any other value is refused. -/
def specsOf (v : JsonValue) (name : String) : Decode (List JsonValue) :=
  match v.field? name with
  | some (.array items) => pure items
  | none => pure []
  | some _ => refuse (name ++ " must be a list")

/-- A boolean member; anything else is false. -/
def flagOf (v : JsonValue) (name : String) : Bool :=
  match v.field? name with
  | some (.bool b) => b
  | _ => false

/-- A list of names: a list of strings, or one string for a list of one. -/
def namesOf (what : String) (v : JsonValue) : Decode (List String) :=
  match v with
  | .array items => items.mapM fun
    | .string s => pure s
    | _ => refuse (what ++ " must hold strings")
  | .string s => pure [s]
  | w => refuse (what ++ " must be a list of strings, got " ++ w.render)

/-- The value of a hex digit, either case. -/
def hexDigitValue? (b : UInt8) : Option Nat :=
  if 0x30 ≤ b ∧ b ≤ 0x39 then some (b.toNat - 0x30)
  else if 0x61 ≤ b ∧ b ≤ 0x66 then some (b.toNat - 0x61 + 10)
  else if 0x41 ≤ b ∧ b ≤ 0x46 then some (b.toNat - 0x41 + 10)
  else none

/-- One byte from a pair of hex characters, read as an unsigned number that may carry a `+`. -/
def hexPair? (hi lo : UInt8) : Option UInt8 :=
  if hi = 0x2B then (hexDigitValue? lo).map Nat.toUInt8
  else do
    let h ← hexDigitValue? hi
    let l ← hexDigitValue? lo
    pure (h * 16 + l).toUInt8

/-- Bytes from hex pairs. -/
def hexPairs : List UInt8 → Decode Bytes
  | hi :: lo :: rest => do
    match hexPair? hi lo with
    | some b => return b :: (← hexPairs rest)
    | none => refuse "bad hex"
  | _ => pure []

/-- Bytes from a text of hex pairs; the text must have an even number of bytes. -/
def hexBytes (h : String) : Decode Bytes :=
  let raw := Bytes.ofString h
  if raw.length % 2 = 1 then refuse "odd hex length" else hexPairs raw

/-- Bytes in their wire form. -/
def bytesOfJson (v : JsonValue) : Decode Bytes :=
  match v with
  | .string s => pure (Bytes.ofString s)
  | .object members =>
    match members.lookup "hex" with
    | some (.string h) => hexBytes h
    | _ => refuse "bytes object needs a hex field"
  | w => refuse ("expected bytes, got " ++ w.render)

/-- Bytes in their wire form: a string when they are UTF-8, hex otherwise. -/
def bytesJson (b : Bytes) : JsonValue :=
  match Text.Utf8.decode b with
  | .ok s => .string s
  | .error _ => .object [("hex", .string (Bytes.toHex b))]

/-- A key member: a list of segment strings, or one string for a one-segment key. A list that
holds anything else is refused under the member's name. -/
def keyOf (v : JsonValue) (name : String) : Decode Key :=
  match v.field? name with
  | some (.string s) => pure (Key.single s)
  | some (.array items) => do
    let segments ← items.mapM fun
      | .string s => pure s
      | _ => refuse (name ++ " must hold strings")
    pure ⟨segments⟩
  | _ => refuse ("missing key field " ++ quoted name)

/-- A key as a list of segments. -/
def keyJson (k : Key) : JsonValue := .array (k.segments.map .string)

/-- A failure answer. -/
def failure (kind message : String) : JsonValue :=
  .object [("error", .string kind), ("message", .string message)]

/-- The answer to a malformed request. -/
def RequestError.toJson (e : RequestError) : JsonValue := failure "DriverError" e.message

/-- The members of a state failure. -/
def stateFailureMembers (e : StateError) : List (String × JsonValue) :=
  [("error", .string e.kindName), ("message", .string e.message), ("bad_input", .bool e.isBadInput)]

/-- A state failure answer. -/
def stateFailure (e : StateError) : JsonValue := .object (stateFailureMembers e)

/-- The ledger in key order. -/
def ledgerJson (s : Stub) : JsonValue :=
  .array (s.entries.map fun (k, b) => .array [.string k, bytesJson b])

/-- The events of the current transaction in emission order. -/
def eventsJson (s : Stub) : JsonValue :=
  .array (s.events.map fun e => .object [("name", .string e.name), ("payload", bytesJson e.payload)])

/-- A value built from a request, as compact bytes: its objects are maps, so their members are
written sorted by name. -/
def jsonBytes (v : JsonValue) : Bytes := Bytes.ofString v.sortMembers.render

/-- A decimal integer in `[lo, hi]`, as integer text is read (no blanks, one optional sign). -/
def integerOf (lo hi : Int) (s : String) : Except Number.IntError Int := Number.parseInt lo hi s

end Chaincode.Protocol
