/-!
# Byte strings

Values cross the ledger boundary as byte strings: stored entries, event payloads and the raw
arguments of an invocation. A byte string is a list of octets, so that every law about encoding
and decoding is a statement about lists.
-/

namespace Chaincode

/-- A byte string: stored values, payloads and raw arguments. -/
abbrev Bytes := List UInt8

namespace Bytes

/-- The UTF-8 encoding of a text, character by character. -/
def ofString (s : String) : Bytes :=
  s.toList.flatMap String.utf8EncodeChar

/-- The lowercase hexadecimal digit of a value below sixteen. -/
def hexDigit (n : Nat) : Char :=
  if n < 10 then Char.ofNat (48 + n) else Char.ofNat (87 + n)

/-- Two lowercase hexadecimal digits per byte, most significant first. -/
def toHex (b : Bytes) : String :=
  String.ofList (b.flatMap fun x => [hexDigit (x.toNat / 16), hexDigit (x.toNat % 16)])

/-- The value of one hexadecimal digit of either case. -/
def hexValue? (c : Char) : Option Nat :=
  if '0' ≤ c ∧ c ≤ '9' then some (c.toNat - 48)
  else if 'a' ≤ c ∧ c ≤ 'f' then some (c.toNat - 87)
  else if 'A' ≤ c ∧ c ≤ 'F' then some (c.toNat - 55)
  else none

/-- Reads pairs of hexadecimal digits; an odd count or a stray character gives none. -/
def ofHexChars? : List Char → Option Bytes
  | [] => some []
  | [_] => none
  | hi :: lo :: rest => do
    let h ← hexValue? hi
    let l ← hexValue? lo
    let tail ← ofHexChars? rest
    pure ((h * 16 + l).toUInt8 :: tail)

/-- Reads a hexadecimal text, two digits per byte. -/
def ofHex? (s : String) : Option Bytes :=
  ofHexChars? s.toList

end Bytes

end Chaincode
