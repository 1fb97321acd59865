import Chaincode.Codec.Basic
import Chaincode.Text.Basic
import Chaincode.Text.Quoted

/-!
# Composite keys

A key is a list of text segments; the first segment of a stored key is its namespace. On the
ledger a key is one text: a NUL, then every segment followed by a NUL,

```text
["Paper", "A", "1"]  ↦  "\0Paper\0A\01\0"
```

Every segment is terminated, so the encoding of a prefix of segments is a text prefix of the
encoding, and a namespace never matches a longer namespace (`Paper` against `Paper_ExternalId`).
Reading an encoding back requires a leading and a trailing NUL and splits what lies between them
at every NUL, so a segment that itself holds a NUL does not survive the round trip, and the empty
key, encoded as a lone NUL, cannot be read back.
-/

namespace Chaincode

/-- A composite key: an ordered list of text segments. -/
structure Key where
  segments : List String
  deriving DecidableEq, Repr, Inhabited

namespace Key

/-- The segment terminator, U+0000. -/
def separator : Char := '\x00'

/-- The key of one segment. -/
def single (s : String) : Key := ⟨[s]⟩

/-- The number of segments. -/
def length (k : Key) : Nat := k.segments.length

/-- Whether the key has no segments. -/
def isEmpty (k : Key) : Bool := k.segments.isEmpty

/-- The key with one more segment at the end. -/
def push (k : Key) (s : String) : Key := ⟨k.segments ++ [s]⟩

/-- The key with a namespace segment in front. -/
def prepend (k : Key) (ns : String) : Key := ⟨ns :: k.segments⟩

/-- Whether the segments of `p` are the first segments of `k`. -/
def startsWith (k p : Key) : Bool := p.segments.isPrefixOf k.segments

/-- The position of the first segment that holds the separator, if any. -/
def invalidSegment? (k : Key) : Option Nat :=
  k.segments.findIdx? fun s => Text.containsChar s separator

/-- The characters of the ledger encoding. -/
def compositeChars (k : Key) : List Char :=
  separator :: k.segments.flatMap fun s => s.toList ++ [separator]

/-- The ledger encoding: a NUL, then each segment followed by a NUL. -/
def toComposite (k : Key) : String := String.ofList k.compositeChars

/-- Whether the encoding of `p` is a text prefix of the encoding of `k`. -/
def compositeStartsWith (k p : Key) : Bool :=
  Text.startsWith k.toComposite p.toComposite

/-- Splits characters at every separator; no separator gives one piece. -/
def splitAtSeparators : List Char → List (List Char)
  | [] => [[]]
  | c :: rest =>
    match splitAtSeparators rest with
    | [] => [[c]]
    | piece :: pieces => if c = separator then [] :: piece :: pieces else (c :: piece) :: pieces

/-- The body of an encoding: what lies between a leading and a trailing separator, when the text
has both and they are different characters. -/
def compositeBody? : List Char → Option (List Char)
  | c :: rest =>
    if c = separator ∧ rest.getLast? = some separator then some rest.dropLast else none
  | [] => none

/-- The failure of reading a text that is not a key encoding. -/
def malformed : CodecError :=
  .decode "cc_01_state_mapping::domain::key::Key" "missing composite key separators"

/-- Reads a ledger encoding back into a key. -/
def ofComposite? (s : String) : Except CodecError Key :=
  match compositeBody? s.toList with
  | some body => .ok ⟨(splitAtSeparators body).map String.ofList⟩
  | none => .error malformed

/-- The segments joined by `/`, as messages show a key. -/
def display (k : Key) : String := "/".intercalate k.segments

/-- The debugging form, `Key(["Paper", "A"])`. -/
def debug (k : Key) : String := "Key(" ++ Text.quoteList k.segments ++ ")"

/-- Segment lists compared segment by segment; a proper prefix comes first. -/
def compareSegments : List String → List String → Ordering
  | [], [] => .eq
  | [], _ :: _ => .lt
  | _ :: _, [] => .gt
  | a :: as, b :: bs =>
    match compare a b with
    | .eq => compareSegments as bs
    | o => o

instance : Ord Key := ⟨fun a b => compareSegments a.segments b.segments⟩

end Key

end Chaincode
