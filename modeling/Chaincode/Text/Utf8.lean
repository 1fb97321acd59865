import Chaincode.Bytes

/-!
# Reading UTF-8

A byte string is text when it splits into well-formed UTF-8 characters (RFC 3629 §4). When it
does not, the reader reports where the longest valid prefix ends and how long the bad sequence
after it is: one to three bytes, the bytes that cannot start or continue any character, or
nothing when the input stops in the middle of a character that could still have been completed.
-/

namespace Chaincode.Text.Utf8

/-- Why a byte string is not UTF-8: the length of its longest valid prefix, and the length of the
offending sequence after it (none when the input ends inside a character). -/
structure Utf8Error where
  validUpTo : Nat
  errorLength : Option Nat
  deriving DecidableEq, Repr

/-- The usual wording of a UTF-8 failure. -/
def Utf8Error.message : Utf8Error → String
  | ⟨i, some n⟩ => "invalid utf-8 sequence of " ++ toString n ++ " bytes from index " ++ toString i
  | ⟨i, none⟩ => "incomplete utf-8 byte sequence from index " ++ toString i

/-- A continuation byte, `10xxxxxx`. -/
def isContinuation (b : UInt8) : Bool := 0x80 ≤ b && b ≤ 0xBF

/-- The second byte of a three-byte character, which depends on the first: after `E0` it must be
at least `A0` (no overlong forms) and after `ED` at most `9F` (no surrogates). -/
def secondOfThree (b0 b1 : UInt8) : Bool :=
  if b0 = 0xE0 then 0xA0 ≤ b1 && b1 ≤ 0xBF
  else if b0 = 0xED then 0x80 ≤ b1 && b1 ≤ 0x9F
  else isContinuation b1

/-- The second byte of a four-byte character: after `F0` at least `90` (no overlong forms), after
`F4` at most `8F` (nothing above U+10FFFF). -/
def secondOfFour (b0 b1 : UInt8) : Bool :=
  if b0 = 0xF0 then 0x90 ≤ b1 && b1 ≤ 0xBF
  else if b0 = 0xF4 then 0x80 ≤ b1 && b1 ≤ 0x8F
  else isContinuation b1

/-- The low six bits of a continuation byte. -/
def low6 (b : UInt8) : Nat := b.toNat % 64

/-- Decodes from byte offset `pos`, consing characters onto `acc` in reverse. -/
def decodeFrom (pos : Nat) (acc : List Char) : Bytes → Except Utf8Error (List Char)
  | [] => .ok acc.reverse
  | b0 :: rest =>
    if b0 < 0x80 then decodeFrom (pos + 1) (Char.ofNat b0.toNat :: acc) rest
    else if 0xC2 ≤ b0 ∧ b0 ≤ 0xDF then
      match rest with
      | [] => .error ⟨pos, none⟩
      | b1 :: rest =>
        if isContinuation b1 then
          decodeFrom (pos + 2) (Char.ofNat ((b0.toNat % 32) * 64 + low6 b1) :: acc) rest
        else .error ⟨pos, some 1⟩
    else if 0xE0 ≤ b0 ∧ b0 ≤ 0xEF then
      match rest with
      | [] => .error ⟨pos, none⟩
      | b1 :: rest =>
        if secondOfThree b0 b1 then
          match rest with
          | [] => .error ⟨pos, none⟩
          | b2 :: rest =>
            if isContinuation b2 then
              decodeFrom (pos + 3)
                (Char.ofNat ((b0.toNat % 16) * 4096 + low6 b1 * 64 + low6 b2) :: acc) rest
            else .error ⟨pos, some 2⟩
        else .error ⟨pos, some 1⟩
    else if 0xF0 ≤ b0 ∧ b0 ≤ 0xF4 then
      match rest with
      | [] => .error ⟨pos, none⟩
      | b1 :: rest =>
        if secondOfFour b0 b1 then
          match rest with
          | [] => .error ⟨pos, none⟩
          | b2 :: rest =>
            if isContinuation b2 then
              match rest with
              | [] => .error ⟨pos, none⟩
              | b3 :: rest =>
                if isContinuation b3 then
                  decodeFrom (pos + 4)
                    (Char.ofNat ((b0.toNat % 8) * 262144 + low6 b1 * 4096 + low6 b2 * 64
                      + low6 b3) :: acc) rest
                else .error ⟨pos, some 3⟩
            else .error ⟨pos, some 2⟩
        else .error ⟨pos, some 1⟩
    else .error ⟨pos, some 1⟩

/-- The text a byte string encodes, or where and why it stops being UTF-8. -/
def decode (b : Bytes) : Except Utf8Error String :=
  (decodeFrom 0 [] b).map String.ofList

/-- Whether a byte string is well-formed UTF-8. -/
def isValid (b : Bytes) : Bool :=
  match decode b with
  | .ok _ => true
  | .error _ => false

end Chaincode.Text.Utf8
