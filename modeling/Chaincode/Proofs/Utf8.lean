import Chaincode.Text.Utf8

/-!
# Reading back what was written as UTF-8

The reader takes a byte string apart one character at a time, by the length its lead byte
announces. Each of its four paths is stated once here as an equation on a well-formed sequence,
and the UTF-8 encoding of every character (RFC 3629 §3) is shown to take the path of its length
and give the character back: no encoding is overlong, none is a surrogate, and none lies beyond
U+10FFFF. So the reader inverts the encoding of every text, and text encodings are injective.

Conversely, each path the reader accepts builds a character whose encoding is exactly the bytes
it consumed: the range checks on the lead byte and the second byte leave a code point of the
path's length that is no surrogate. So the reader accepts exactly the encodings of texts.
-/

namespace Chaincode.Text.Utf8

variable {pos : Nat} {acc : List Char} {rest : Bytes}

/-- One byte below `80` is a character of its own. -/
theorem decodeFrom_one {b0 : UInt8} (lead : b0.toNat < 0x80) :
    decodeFrom pos acc (b0 :: rest) = decodeFrom (pos + 1) (Char.ofNat b0.toNat :: acc) rest := by
  have one : b0 < 0x80 := by simp [UInt8.lt_iff_toNat_lt]; omega
  rw [decodeFrom.eq_def]
  dsimp only
  rw [if_pos one]

/-- A lead byte `C2`-`DF` and a continuation byte. -/
theorem decodeFrom_two {b0 b1 : UInt8} (lead : 0xC2 ≤ b0.toNat ∧ b0.toNat ≤ 0xDF)
    (cont : 0x80 ≤ b1.toNat ∧ b1.toNat ≤ 0xBF) :
    decodeFrom pos acc (b0 :: b1 :: rest) =
      decodeFrom (pos + 2) (Char.ofNat (b0.toNat % 32 * 64 + b1.toNat % 64) :: acc) rest := by
  have notOne : ¬ b0 < 0x80 := by simp [UInt8.lt_iff_toNat_lt]; omega
  have two : 0xC2 ≤ b0 ∧ b0 ≤ 0xDF := by simp [UInt8.le_iff_toNat_le]; omega
  have continues : isContinuation b1 = true := by
    simp [isContinuation, UInt8.le_iff_toNat_le]; omega
  rw [decodeFrom.eq_def]
  dsimp only
  rw [if_neg notOne, if_pos two, if_pos continues]
  rfl

/-- A lead byte `E0`-`EF`, a second byte allowed after it, and a continuation byte. -/
theorem decodeFrom_three {b0 b1 b2 : UInt8} (lead : 0xE0 ≤ b0.toNat ∧ b0.toNat ≤ 0xEF)
    (second : secondOfThree b0 b1 = true) (cont : 0x80 ≤ b2.toNat ∧ b2.toNat ≤ 0xBF) :
    decodeFrom pos acc (b0 :: b1 :: b2 :: rest) =
      decodeFrom (pos + 3)
        (Char.ofNat (b0.toNat % 16 * 4096 + b1.toNat % 64 * 64 + b2.toNat % 64) :: acc) rest := by
  have notOne : ¬ b0 < 0x80 := by simp [UInt8.lt_iff_toNat_lt]; omega
  have notTwo : ¬ (0xC2 ≤ b0 ∧ b0 ≤ 0xDF) := by simp [UInt8.le_iff_toNat_le]; omega
  have three : 0xE0 ≤ b0 ∧ b0 ≤ 0xEF := by simp [UInt8.le_iff_toNat_le]; omega
  have continues : isContinuation b2 = true := by
    simp [isContinuation, UInt8.le_iff_toNat_le]; omega
  rw [decodeFrom.eq_def]
  dsimp only
  rw [if_neg notOne, if_neg notTwo, if_pos three, if_pos second, if_pos continues]
  rfl

/-- A lead byte `F0`-`F4`, a second byte allowed after it, and two continuation bytes. -/
theorem decodeFrom_four {b0 b1 b2 b3 : UInt8} (lead : 0xF0 ≤ b0.toNat ∧ b0.toNat ≤ 0xF4)
    (second : secondOfFour b0 b1 = true) (cont2 : 0x80 ≤ b2.toNat ∧ b2.toNat ≤ 0xBF)
    (cont3 : 0x80 ≤ b3.toNat ∧ b3.toNat ≤ 0xBF) :
    decodeFrom pos acc (b0 :: b1 :: b2 :: b3 :: rest) =
      decodeFrom (pos + 4)
        (Char.ofNat (b0.toNat % 8 * 262144 + b1.toNat % 64 * 4096 + b2.toNat % 64 * 64 +
          b3.toNat % 64) :: acc) rest := by
  have notOne : ¬ b0 < 0x80 := by simp [UInt8.lt_iff_toNat_lt]; omega
  have notTwo : ¬ (0xC2 ≤ b0 ∧ b0 ≤ 0xDF) := by simp [UInt8.le_iff_toNat_le]; omega
  have notThree : ¬ (0xE0 ≤ b0 ∧ b0 ≤ 0xEF) := by simp [UInt8.le_iff_toNat_le]; omega
  have four : 0xF0 ≤ b0 ∧ b0 ≤ 0xF4 := by simp [UInt8.le_iff_toNat_le]; omega
  have continues2 : isContinuation b2 = true := by
    simp [isContinuation, UInt8.le_iff_toNat_le]; omega
  have continues3 : isContinuation b3 = true := by
    simp [isContinuation, UInt8.le_iff_toNat_le]; omega
  rw [decodeFrom.eq_def]
  dsimp only
  rw [if_neg notOne, if_neg notTwo, if_neg notThree, if_pos four, if_pos second, if_pos continues2,
    if_pos continues3]
  rfl

theorem secondOfThree_of_toNat {b0 b1 : UInt8} (notOverlong : b0.toNat = 0xE0 → 0xA0 ≤ b1.toNat)
    (notSurrogate : b0.toNat = 0xED → b1.toNat ≤ 0x9F) (cont : 0x80 ≤ b1.toNat ∧ b1.toNat ≤ 0xBF) :
    secondOfThree b0 b1 = true := by
  unfold secondOfThree
  split
  · next e0 =>
      have := notOverlong (by rw [e0]; rfl)
      simp [UInt8.le_iff_toNat_le]; omega
  · split
    · next ed =>
        have := notSurrogate (by rw [ed]; rfl)
        simp [UInt8.le_iff_toNat_le]; omega
    · simp [isContinuation, UInt8.le_iff_toNat_le]; omega

theorem secondOfFour_of_toNat {b0 b1 : UInt8} (notOverlong : b0.toNat = 0xF0 → 0x90 ≤ b1.toNat)
    (inRange : b0.toNat = 0xF4 → b1.toNat ≤ 0x8F) (cont : 0x80 ≤ b1.toNat ∧ b1.toNat ≤ 0xBF) :
    secondOfFour b0 b1 = true := by
  unfold secondOfFour
  split
  · next f0 =>
      have := notOverlong (by rw [f0]; rfl)
      simp [UInt8.le_iff_toNat_le]; omega
  · split
    · next f4 =>
        have := inRange (by rw [f4]; rfl)
        simp [UInt8.le_iff_toNat_le]; omega
    · simp [isContinuation, UInt8.le_iff_toNat_le]; omega

section Encoding

variable {c : Char}

-- In each range the lead byte announces the length of the encoding, the continuation bytes
-- carry six bits each, and the decoded bits add up to the code point again.

/-- The bits a byte carries below its marker bits come back from it. -/
theorem payload_of_byte {k marker : Nat} (x : Nat) (positive : 0 < k) (marked : marker % k = 0)
    (fits : marker + k ≤ 256) : (UInt8.ofNat (x % k + marker)).toNat % k = x % k := by
  have small : x % k + marker < 256 := by
    have := Nat.mod_lt x positive
    omega
  rw [UInt8.toNat_ofNat', Nat.mod_eq_of_lt small, Nat.add_mod, marked, Nat.add_zero, Nat.mod_mod,
    Nat.mod_mod]

theorem decodeFrom_encode_one (range : c.val.toNat ≤ 0x7f) :
    decodeFrom pos acc (String.utf8EncodeChar c ++ rest) =
      decodeFrom (pos + 1) (c :: acc) rest := by
  have byte : (UInt8.ofNat c.val.toNat).toNat = c.val.toNat := by
    simp only [UInt8.toNat_ofNat']; omega
  simp only [String.utf8EncodeChar, range, if_true, List.cons_append, List.nil_append]
  rw [decodeFrom_one (by omega), byte]
  exact congrArg (decodeFrom _ · rest) (congrArg (· :: acc) (Char.ofNat_toNat c))

theorem decodeFrom_encode_two (range : 0x7f < c.val.toNat ∧ c.val.toNat ≤ 0x7ff) :
    decodeFrom pos acc (String.utf8EncodeChar c ++ rest) =
      decodeFrom (pos + 2) (c :: acc) rest := by
  have notOne : ¬ c.val.toNat ≤ 0x7f := by omega
  simp only [String.utf8EncodeChar, notOne, range, if_true, if_false, List.cons_append,
    List.nil_append]
  rw [decodeFrom_two (by simp only [UInt8.toNat_ofNat']; omega)
    (by simp only [UInt8.toNat_ofNat']; omega)]
  have value : (UInt8.ofNat (c.val.toNat / 64 % 32 + 0xc0)).toNat % 32 * 64 +
      (UInt8.ofNat (c.val.toNat % 64 + 0x80)).toNat % 64 = c.val.toNat := by
    simp (disch := decide) only [payload_of_byte]
    omega
  rw [value]
  exact congrArg (decodeFrom _ · rest) (congrArg (· :: acc) (Char.ofNat_toNat c))

/-- Three bytes: the second byte after `E0` is at least `A0` since the code point is at least
`800`, and after `ED` at most `9F` since a character is no surrogate. -/
theorem decodeFrom_encode_three (range : 0x7ff < c.val.toNat ∧ c.val.toNat ≤ 0xffff) :
    decodeFrom pos acc (String.utf8EncodeChar c ++ rest) =
      decodeFrom (pos + 3) (c :: acc) rest := by
  have valid : c.val.toNat < 0xD800 ∨ (0xDFFF < c.val.toNat ∧ c.val.toNat < 0x110000) := c.valid
  have notOne : ¬ c.val.toNat ≤ 0x7f := by omega
  have notTwo : ¬ c.val.toNat ≤ 0x7ff := by omega
  simp only [String.utf8EncodeChar, notOne, notTwo, range, if_true, if_false, List.cons_append,
    List.nil_append]
  rw [decodeFrom_three (by simp only [UInt8.toNat_ofNat']; omega)
    (secondOfThree_of_toNat (by simp only [UInt8.toNat_ofNat']; omega)
      (by simp only [UInt8.toNat_ofNat']; omega) (by simp only [UInt8.toNat_ofNat']; omega))
    (by simp only [UInt8.toNat_ofNat']; omega)]
  have value : (UInt8.ofNat (c.val.toNat / 4096 % 16 + 0xe0)).toNat % 16 * 4096 +
      (UInt8.ofNat (c.val.toNat / 64 % 64 + 0x80)).toNat % 64 * 64 +
      (UInt8.ofNat (c.val.toNat % 64 + 0x80)).toNat % 64 = c.val.toNat := by
    simp (disch := decide) only [payload_of_byte]
    omega
  rw [value]
  exact congrArg (decodeFrom _ · rest) (congrArg (· :: acc) (Char.ofNat_toNat c))

/-- Four bytes: the second byte after `F0` is at least `90` since the code point is at least
`10000`, and after `F4` at most `8F` since no character lies beyond `10FFFF`. -/
theorem decodeFrom_encode_four (range : 0xffff < c.val.toNat) :
    decodeFrom pos acc (String.utf8EncodeChar c ++ rest) =
      decodeFrom (pos + 4) (c :: acc) rest := by
  -- above the surrogates only the upper bound of code points matters
  have below : c.val.toNat < 0x110000 := by
    have valid : c.val.toNat < 0xD800 ∨ (0xDFFF < c.val.toNat ∧ c.val.toNat < 0x110000) := c.valid
    omega
  have notOne : ¬ c.val.toNat ≤ 0x7f := by omega
  have notTwo : ¬ c.val.toNat ≤ 0x7ff := by omega
  have notThree : ¬ c.val.toNat ≤ 0xffff := by omega
  simp only [String.utf8EncodeChar, notOne, notTwo, notThree, if_false, List.cons_append,
    List.nil_append]
  rw [decodeFrom_four (by simp only [UInt8.toNat_ofNat']; omega)
    (secondOfFour_of_toNat (by simp only [UInt8.toNat_ofNat']; omega)
      (by simp only [UInt8.toNat_ofNat']; omega) (by simp only [UInt8.toNat_ofNat']; omega))
    (by simp only [UInt8.toNat_ofNat']; omega) (by simp only [UInt8.toNat_ofNat']; omega)]
  have value : (UInt8.ofNat (c.val.toNat / 262144 % 8 + 0xf0)).toNat % 8 * 262144 +
      (UInt8.ofNat (c.val.toNat / 4096 % 64 + 0x80)).toNat % 64 * 4096 +
      (UInt8.ofNat (c.val.toNat / 64 % 64 + 0x80)).toNat % 64 * 64 +
      (UInt8.ofNat (c.val.toNat % 64 + 0x80)).toNat % 64 = c.val.toNat := by
    simp (disch := decide) only [payload_of_byte]
    omega
  rw [value]
  exact congrArg (decodeFrom _ · rest) (congrArg (· :: acc) (Char.ofNat_toNat c))

end Encoding

/-- The encoding of a character is read back as that character, whatever follows it. -/
theorem decodeFrom_utf8EncodeChar (c : Char) :
    decodeFrom pos acc (String.utf8EncodeChar c ++ rest) =
      decodeFrom (pos + c.utf8Size) (c :: acc) rest := by
  rcases Char.utf8Size_eq c with size | size | size | size <;> rw [size]
  · exact decodeFrom_encode_one
      (by simpa [Char.utf8Size_eq_one_iff, UInt32.le_iff_toNat_le] using size)
  · exact decodeFrom_encode_two
      (by simpa [Char.utf8Size_eq_two_iff, UInt32.le_iff_toNat_le, UInt32.lt_iff_toNat_lt]
        using size)
  · exact decodeFrom_encode_three
      (by simpa [Char.utf8Size_eq_three_iff, UInt32.le_iff_toNat_le, UInt32.lt_iff_toNat_lt]
        using size)
  · exact decodeFrom_encode_four
      (by simpa [Char.utf8Size_eq_four_iff, UInt32.lt_iff_toNat_lt] using size)

theorem decodeFrom_flatMap (chars : List Char) :
    decodeFrom pos acc (chars.flatMap String.utf8EncodeChar) = .ok (acc.reverse ++ chars) := by
  induction chars generalizing pos acc with
  | nil => simp [decodeFrom]
  | cons c rest ih =>
      rw [List.flatMap_cons, decodeFrom_utf8EncodeChar, ih]
      simp

/-- The reader inverts the UTF-8 encoding of every text. -/
theorem decode_ofString (s : String) : decode (Bytes.ofString s) = .ok s := by
  rw [decode, Bytes.ofString, decodeFrom_flatMap]
  simp [Except.map, String.ofList_toList]


/-- Two texts with the same UTF-8 encoding are equal. -/
theorem ofString_injective {s t : String} (same : Bytes.ofString s = Bytes.ofString t) : s = t := by
  have read := decode_ofString s
  rw [same, decode_ofString t] at read
  exact (Except.ok.inj read).symm

/-! ## Only encodings are read -/

theorem toNat_ofNat_of_valid {v : Nat} (valid : v < 0xD800 ∨ (0xDFFF < v ∧ v < 0x110000)) :
    (Char.ofNat v).val.toNat = v := by
  have h : v.isValidChar := valid
  rw [Char.ofNat, dif_pos h]
  rfl

theorem toNat_of_isContinuation {b : UInt8} (cont : isContinuation b = true) :
    0x80 ≤ b.toNat ∧ b.toNat ≤ 0xBF := by
  simpa [isContinuation, UInt8.le_iff_toNat_le] using cont

/-- A second byte checked as a continuation byte, narrowed from below after the lead byte `x`
and from above after the lead byte `y`. -/
theorem toNat_of_narrowedSecond {b0 b1 x y lo hi : UInt8} (apart : x ≠ y)
    (low : 0x80 ≤ lo.toNat) (high : hi.toNat ≤ 0xBF)
    (second : (if b0 = x then lo ≤ b1 && b1 ≤ 0xBF
      else if b0 = y then 0x80 ≤ b1 && b1 ≤ hi else isContinuation b1) = true) :
    0x80 ≤ b1.toNat ∧ b1.toNat ≤ 0xBF ∧ (b0.toNat = x.toNat → lo.toNat ≤ b1.toNat) ∧
      (b0.toNat = y.toNat → b1.toNat ≤ hi.toNat) := by
  by_cases atX : b0 = x
  · subst atX
    simp only [if_true, Bool.and_eq_true, decide_eq_true_eq, UInt8.le_iff_toNat_le] at second
    have notY : b0.toNat ≠ y.toNat := fun same => apart (UInt8.toNat_inj.mp same)
    refine ⟨by omega, by simpa using second.2, fun _ => second.1, fun same => absurd same notY⟩
  · have notX : b0.toNat ≠ x.toNat := fun same => atX (UInt8.toNat_inj.mp same)
    by_cases atY : b0 = y
    · subst atY
      simp only [atX, if_false, if_true, Bool.and_eq_true, decide_eq_true_eq,
        UInt8.le_iff_toNat_le] at second
      refine ⟨by simpa using second.1, by omega, fun same => absurd same notX, fun _ => second.2⟩
    · have notY : b0.toNat ≠ y.toNat := fun same => atY (UInt8.toNat_inj.mp same)
      simp only [atX, atY, if_false] at second
      have cont := toNat_of_isContinuation second
      exact ⟨cont.1, cont.2, fun same => absurd same notX, fun same => absurd same notY⟩

theorem toNat_of_secondOfThree {b0 b1 : UInt8} (second : secondOfThree b0 b1 = true) :
    0x80 ≤ b1.toNat ∧ b1.toNat ≤ 0xBF ∧ (b0.toNat = 0xE0 → 0xA0 ≤ b1.toNat) ∧
      (b0.toNat = 0xED → b1.toNat ≤ 0x9F) :=
  toNat_of_narrowedSecond (by decide) (by decide) (by decide) second

theorem toNat_of_secondOfFour {b0 b1 : UInt8} (second : secondOfFour b0 b1 = true) :
    0x80 ≤ b1.toNat ∧ b1.toNat ≤ 0xBF ∧ (b0.toNat = 0xF0 → 0x90 ≤ b1.toNat) ∧
      (b0.toNat = 0xF4 → b1.toNat ≤ 0x8F) :=
  toNat_of_narrowedSecond (by decide) (by decide) (by decide) second

-- Each path's character lies in the range its length encodes, so the encoder takes the same
-- path and writes back the bytes: the arithmetic of the two is inverse digit by digit.

theorem utf8EncodeChar_ofNat_one {b0 : UInt8} (lead : b0.toNat < 0x80) :
    String.utf8EncodeChar (Char.ofNat b0.toNat) = [b0] := by
  have v : (Char.ofNat b0.toNat).val.toNat = b0.toNat := toNat_ofNat_of_valid (by omega)
  simp only [String.utf8EncodeChar, v]
  rw [if_pos (by omega)]
  congr 1
  apply UInt8.toNat_inj.mp
  simp only [UInt8.toNat_ofNat']
  omega

theorem utf8EncodeChar_ofNat_two {b0 b1 : UInt8} (lead : 0xC2 ≤ b0.toNat ∧ b0.toNat ≤ 0xDF)
    (cont : 0x80 ≤ b1.toNat ∧ b1.toNat ≤ 0xBF) :
    String.utf8EncodeChar (Char.ofNat (b0.toNat % 32 * 64 + low6 b1)) = [b0, b1] := by
  have v : (Char.ofNat (b0.toNat % 32 * 64 + low6 b1)).val.toNat =
      b0.toNat % 32 * 64 + low6 b1 :=
    toNat_ofNat_of_valid (by simp only [low6]; omega)
  simp only [low6] at v ⊢
  simp only [String.utf8EncodeChar, v]
  rw [if_neg (by omega), if_pos (by omega)]
  congr 2 <;> apply UInt8.toNat_inj.mp <;> simp only [UInt8.toNat_ofNat'] <;> omega

theorem utf8EncodeChar_ofNat_three {b0 b1 b2 : UInt8}
    (lead : 0xE0 ≤ b0.toNat ∧ b0.toNat ≤ 0xEF) (second : secondOfThree b0 b1 = true)
    (cont : 0x80 ≤ b2.toNat ∧ b2.toNat ≤ 0xBF) :
    String.utf8EncodeChar (Char.ofNat (b0.toNat % 16 * 4096 + low6 b1 * 64 + low6 b2)) =
      [b0, b1, b2] := by
  have bounds := toNat_of_secondOfThree second
  have v : (Char.ofNat (b0.toNat % 16 * 4096 + low6 b1 * 64 + low6 b2)).val.toNat =
      b0.toNat % 16 * 4096 + low6 b1 * 64 + low6 b2 :=
    toNat_ofNat_of_valid (by simp only [low6]; omega)
  simp only [low6] at v ⊢
  simp only [String.utf8EncodeChar, v]
  rw [if_neg (by omega), if_neg (by omega), if_pos (by omega)]
  -- the bytes come back from the bounds on each byte alone
  obtain ⟨low, high, -, -⟩ := bounds
  congr 3 <;> apply UInt8.toNat_inj.mp <;> simp only [UInt8.toNat_ofNat'] <;> omega

theorem utf8EncodeChar_ofNat_four {b0 b1 b2 b3 : UInt8}
    (lead : 0xF0 ≤ b0.toNat ∧ b0.toNat ≤ 0xF4) (second : secondOfFour b0 b1 = true)
    (cont2 : 0x80 ≤ b2.toNat ∧ b2.toNat ≤ 0xBF)
    (cont3 : 0x80 ≤ b3.toNat ∧ b3.toNat ≤ 0xBF) :
    String.utf8EncodeChar
        (Char.ofNat (b0.toNat % 8 * 262144 + low6 b1 * 4096 + low6 b2 * 64 + low6 b3)) =
      [b0, b1, b2, b3] := by
  have bounds := toNat_of_secondOfFour second
  have v : (Char.ofNat
        (b0.toNat % 8 * 262144 + low6 b1 * 4096 + low6 b2 * 64 + low6 b3)).val.toNat =
      b0.toNat % 8 * 262144 + low6 b1 * 4096 + low6 b2 * 64 + low6 b3 :=
    toNat_ofNat_of_valid (by simp only [low6]; omega)
  simp only [low6] at v ⊢
  simp only [String.utf8EncodeChar, v]
  rw [if_neg (by omega), if_neg (by omega), if_neg (by omega)]
  -- the bytes come back from the bounds on each byte alone
  obtain ⟨low, high, -, -⟩ := bounds
  congr 4 <;> apply UInt8.toNat_inj.mp <;> simp only [UInt8.toNat_ofNat'] <;> omega

/-- A character read from the bytes that encode it extends what the rest is read as. -/
theorem read_cons {r : List Char} {c : Char} {bytes : Bytes}
    (encoded : String.utf8EncodeChar c = bytes)
    (later : ∃ chars, r = (c :: acc).reverse ++ chars ∧
      rest = chars.flatMap String.utf8EncodeChar) :
    ∃ chars, r = acc.reverse ++ chars ∧
      bytes ++ rest = chars.flatMap String.utf8EncodeChar := by
  obtain ⟨chars, read, rest⟩ := later
  exact ⟨c :: chars, by simp [read], by rw [rest, List.flatMap_cons, encoded]⟩

/-- What the reader accepts is the encoding of the characters it reads. -/
theorem eq_flatMap_of_decodeFrom {r : List Char} {b : Bytes} (read : decodeFrom pos acc b = .ok r) :
    ∃ chars, r = acc.reverse ++ chars ∧ b = chars.flatMap String.utf8EncodeChar := by
  -- one case per path of the reader; the paths that refuse contradict `read`
  fun_induction decodeFrom pos acc b
  case case1 => exact ⟨[], by simpa using read.symm, rfl⟩
  case case2 pos acc b0 rest lead ih =>
    have lead : b0.toNat < 0x80 := by simpa [UInt8.lt_iff_toNat_lt] using lead
    exact read_cons (utf8EncodeChar_ofNat_one lead) (ih read)
  case case4 pos acc b0 notOne two b1 rest cont ih =>
    have two : 0xC2 ≤ b0.toNat ∧ b0.toNat ≤ 0xDF := by simpa [UInt8.le_iff_toNat_le] using two
    exact read_cons (utf8EncodeChar_ofNat_two two (toNat_of_isContinuation cont)) (ih read)
  case case8 pos acc b0 notOne notTwo three b1 second b2 rest cont ih =>
    have three : 0xE0 ≤ b0.toNat ∧ b0.toNat ≤ 0xEF := by
      simpa [UInt8.le_iff_toNat_le] using three
    exact read_cons (utf8EncodeChar_ofNat_three three second (toNat_of_isContinuation cont))
      (ih read)
  case case14 pos acc b0 notOne notTwo notThree four b1 second b2 cont2 b3 rest cont3 ih =>
    have four : 0xF0 ≤ b0.toNat ∧ b0.toNat ≤ 0xF4 := by
      simpa [UInt8.le_iff_toNat_le] using four
    exact read_cons (utf8EncodeChar_ofNat_four four second (toNat_of_isContinuation cont2)
      (toNat_of_isContinuation cont3)) (ih read)
  all_goals cases read

/-- The reader accepts exactly the encodings of texts. -/
theorem decode_eq_ok_iff {b : Bytes} {s : String} : decode b = .ok s ↔ b = Bytes.ofString s := by
  constructor
  · intro read
    rw [decode] at read
    cases decoded : decodeFrom 0 [] b with
    | error e => rw [decoded] at read; cases read
    | ok chars =>
      rw [decoded] at read
      cases read
      obtain ⟨chars', same, bytes⟩ := eq_flatMap_of_decodeFrom decoded
      simp only [List.reverse_nil, List.nil_append] at same
      subst same
      rw [bytes, Bytes.ofString, String.toList_ofList]
  · rintro rfl
    exact decode_ofString s

end Chaincode.Text.Utf8
