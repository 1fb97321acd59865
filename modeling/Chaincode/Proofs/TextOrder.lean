import Mathlib.Data.String.Basic
import Mathlib.Tactic.SplitIfs
import Chaincode.Bytes

/-!
# Texts compare as their UTF-8 bytes

Texts are ordered character by character, by code point, with a proper prefix first. The ledger
and the keys stored in it are ordered the same way, and the hosts that keep a ledger compare key
texts byte by byte. The two orders agree: UTF-8 writes a longer code point with a greater lead
byte, and among encodings of one length the bytes, read as one big-endian number, grow with the
code point. So comparing two texts is comparing their UTF-8 encodings lexicographically.
-/

namespace Chaincode.Text

open Std

/-! ## Comparisons as comparisons of numbers -/

theorem char_lt_iff_toNat_lt {c d : Char} : c < d ↔ c.toNat < d.toNat :=
  Char.lt_def.trans UInt32.lt_iff_toNat_lt

theorem compare_char (c d : Char) : compare c d = compare c.toNat d.toNat := by
  show compareOfLessAndEq c d = compareOfLessAndEq c.toNat d.toNat
  have eq : c = d ↔ c.toNat = d.toNat := ⟨congrArg _, Char.toNat_inj.mp⟩
  simp only [compareOfLessAndEq, char_lt_iff_toNat_lt, eq]

theorem compare_byte (a b : UInt8) : compare a b = compare a.toNat b.toNat := by
  show compareOfLessAndEq a b = compareOfLessAndEq a.toNat b.toNat
  have eq : a = b ↔ a.toNat = b.toNat := UInt8.toNat_inj.symm
  simp only [compareOfLessAndEq, UInt8.lt_iff_toNat_lt, eq]

/-- A map that keeps the strict order both ways and equality keeps comparisons. -/
theorem compare_eq_of_monotone {v w x y : Nat} (lt : v < w → x < y) (eq : v = w → x = y)
    (gt : w < v → y < x) : compare x y = compare v w := by
  rcases Nat.lt_trichotomy v w with h | h | h
  · rw [Nat.compare_eq_lt.mpr h, Nat.compare_eq_lt.mpr (lt h)]
  · rw [Nat.compare_eq_eq.mpr h, Nat.compare_eq_eq.mpr (eq h)]
  · rw [Nat.compare_eq_gt.mpr h, Nat.compare_eq_gt.mpr (gt h)]

/-- Two-digit numbers compare by their high digits, then by their low digits. -/
theorem compare_digits {B a₁ a₂ b₁ b₂ : Nat} (h₁ : a₂ < B) (h₂ : b₂ < B) :
    (compare a₁ b₁).then (compare a₂ b₂) = compare (a₁ * B + a₂) (b₁ * B + b₂) := by
  rcases Nat.lt_trichotomy a₁ b₁ with h | rfl | h
  · have le : (a₁ + 1) * B ≤ b₁ * B := Nat.mul_le_mul_right _ h
    rw [Nat.succ_mul] at le
    rw [Nat.compare_eq_lt.mpr h, Nat.compare_eq_lt.mpr (show a₁ * B + a₂ < b₁ * B + b₂ by omega)]
    rfl
  · simp only [ReflCmp.compare_self, Ordering.eq_then]
    exact compare_eq_of_monotone (by omega) (by omega) (by omega)
  · have le : (b₁ + 1) * B ≤ a₁ * B := Nat.mul_le_mul_right _ h
    rw [Nat.succ_mul] at le
    rw [Nat.compare_eq_gt.mpr h, Nat.compare_eq_gt.mpr (show b₁ * B + b₂ < a₁ * B + a₂ by omega)]
    rfl

/-! ## Character lists -/

theorem compare_chars_eq_compareOfLessAndEq (xs ys : List Char) :
    compare xs ys = compareOfLessAndEq xs ys := by
  induction xs generalizing ys with
  | nil => cases ys <;> simp [compareOfLessAndEq, List.nil_lt_cons]
  | cons x xs ih =>
    cases ys with
    | nil => simp [compareOfLessAndEq, List.not_lt_nil]
    | cons y ys =>
      rw [List.compare_cons_cons, ih, compare_char]
      rcases Nat.lt_trichotomy x.toNat y.toNat with h | h | h
      · have lt : x :: xs < y :: ys :=
          List.cons_lt_cons_iff.mpr (.inl (char_lt_iff_toNat_lt.mpr h))
        simp only [Nat.compare_eq_lt.mpr h, Ordering.lt_then]
        exact (if_pos lt).symm
      · obtain rfl : x = y := Char.toNat_inj.mp h
        simp [compareOfLessAndEq]
      · have ne : x ≠ y := fun same => by subst same; simp at h
        have notLt : ¬ x < y := fun lt => by have := char_lt_iff_toNat_lt.mp lt; omega
        simp [compareOfLessAndEq, List.cons_lt_cons_iff, Nat.compare_eq_gt.mpr h, notLt, ne]

/-- Texts compare as their character lists. -/
theorem compare_eq_compare_toList (s t : String) : compare s t = compare s.toList t.toList := by
  rw [compare_chars_eq_compareOfLessAndEq s.toList t.toList]
  show compareOfLessAndEq s t = _
  simp only [compareOfLessAndEq, String.lt_iff_toList_lt, ← String.toList_inj]

/-- Lists of one length compare as their first parts, then as what follows. -/
theorem compare_append_of_length_eq {α : Type} [Ord α] {xs ys : List α}
    (same : xs.length = ys.length) (rest rest' : List α) :
    compare (xs ++ rest) (ys ++ rest') = (compare xs ys).then (compare rest rest') := by
  induction xs generalizing ys with
  | nil =>
    cases ys with
    | nil => simp
    | cons => simp at same
  | cons x xs ih =>
    cases ys with
    | nil => simp at same
    | cons y ys =>
      simp only [List.cons_append, List.compare_cons_cons, ih (by simpa using same),
        Ordering.then_assoc]

/-! ## UTF-8 -/

/-- Bytes read as one number, the first byte the most significant. -/
def bigEndian : List UInt8 → Nat
  | [] => 0
  | b :: bs => b.toNat * 256 ^ bs.length + bigEndian bs

theorem bigEndian_lt (bs : List UInt8) : bigEndian bs < 256 ^ bs.length := by
  induction bs with
  | nil => simp [bigEndian]
  | cons b bs ih =>
    have : (b.toNat + 1) * 256 ^ bs.length ≤ 256 * 256 ^ bs.length :=
      Nat.mul_le_mul_right _ b.toNat_lt
    rw [Nat.succ_mul] at this
    simp only [bigEndian, List.length_cons, Nat.pow_succ]
    omega

/-- Byte strings of one length compare as the numbers they spell. -/
theorem compare_eq_compare_bigEndian {xs ys : List UInt8} (same : xs.length = ys.length) :
    compare xs ys = compare (bigEndian xs) (bigEndian ys) := by
  induction xs generalizing ys with
  | nil =>
    cases ys with
    | nil => simp [bigEndian]
    | cons => simp at same
  | cons x xs ih =>
    cases ys with
    | nil => simp at same
    | cons y ys =>
      have tails : xs.length = ys.length := by simpa using same
      rw [List.compare_cons_cons, ih tails, compare_byte,
        compare_digits (bigEndian_lt xs) (tails ▸ bigEndian_lt ys)]
      simp only [bigEndian, tails]

/-- The first byte of the UTF-8 encoding of a code point. -/
def leadByte (v : Nat) : Nat :=
  if v ≤ 0x7f then v
  else if v ≤ 0x7ff then v / 64 % 32 + 0xc0
  else if v ≤ 0xffff then v / 4096 % 16 + 0xe0
  else v / 262144 % 8 + 0xf0

theorem utf8EncodeChar_eq_cons (c : Char) :
    String.utf8EncodeChar c = UInt8.ofNat (leadByte c.toNat) :: (String.utf8EncodeChar c).tail := by
  simp only [String.utf8EncodeChar, leadByte, Char.toNat]
  split_ifs <;> rfl

theorem utf8Size_eq_ite (c : Char) : c.utf8Size =
    if c.toNat ≤ 0x7f then 1 else if c.toNat ≤ 0x7ff then 2 else if c.toNat ≤ 0xffff then 3
    else 4 := by
  simp only [Char.utf8Size, UInt32.le_iff_toNat_le]
  rfl

theorem toNat_lt_of_isValidChar (c : Char) : c.toNat < 0x110000 := by
  have := c.valid
  simp only [UInt32.isValidChar, Nat.isValidChar] at this
  exact this.elim (fun low => by simp only [Char.toNat]; omega) (fun high => high.2)

/-- A shorter encoding has a smaller lead byte and belongs to a smaller code point. -/
theorem leadByte_lt_of_utf8Size_lt {c d : Char} (shorter : c.utf8Size < d.utf8Size) :
    leadByte c.toNat < leadByte d.toNat ∧ c.toNat < d.toNat := by
  have bounded := toNat_lt_of_isValidChar d
  rw [utf8Size_eq_ite, utf8Size_eq_ite] at shorter
  unfold leadByte
  split_ifs at shorter ⊢ <;> omega

/-- Among encodings, the big-endian value grows with the code point. -/
theorem bigEndian_utf8EncodeChar_lt {c d : Char} (lt : c.toNat < d.toNat) :
    bigEndian (String.utf8EncodeChar c) < bigEndian (String.utf8EncodeChar d) := by
  have bounded := toNat_lt_of_isValidChar d
  simp only [String.utf8EncodeChar, Char.toNat] at lt bounded ⊢
  -- after the redundant remainders are dropped, each pair of lengths is linear arithmetic
  split_ifs <;> simp only [bigEndian, List.length_cons, List.length_nil, UInt8.toNat_ofNat'] <;>
    simp (disch := omega) only [Nat.mod_eq_of_lt] <;> omega

theorem compare_utf8EncodeChar_append_of_utf8Size_lt {c d : Char}
    (shorter : c.utf8Size < d.utf8Size) (rest rest' : List UInt8) :
    compare (String.utf8EncodeChar c ++ rest) (String.utf8EncodeChar d ++ rest') = .lt ∧
      compare c d = .lt := by
  obtain ⟨lead, below⟩ := leadByte_lt_of_utf8Size_lt shorter
  have byte : ∀ {v : Nat}, v < 0x110000 → (UInt8.ofNat (leadByte v)).toNat = leadByte v := by
    intro v bounded
    rw [UInt8.toNat_ofNat']
    unfold leadByte
    split_ifs <;> omega
  constructor
  · rw [utf8EncodeChar_eq_cons c, utf8EncodeChar_eq_cons d, List.cons_append, List.cons_append,
      List.compare_cons_cons, compare_byte, byte (toNat_lt_of_isValidChar c),
      byte (toNat_lt_of_isValidChar d), Nat.compare_eq_lt.mpr lead]
    rfl
  · rw [compare_char, Nat.compare_eq_lt.mpr below]

/-- Encoded characters compare as the characters, then as what follows them. -/
theorem compare_utf8EncodeChar_append (c d : Char) (rest rest' : List UInt8) :
    compare (String.utf8EncodeChar c ++ rest) (String.utf8EncodeChar d ++ rest') =
      (compare c d).then (compare rest rest') := by
  rcases Nat.lt_trichotomy c.utf8Size d.utf8Size with shorter | same | longer
  · obtain ⟨bytes, chars⟩ := compare_utf8EncodeChar_append_of_utf8Size_lt shorter rest rest'
    rw [bytes, chars]
    rfl
  · have lengths : (String.utf8EncodeChar c).length = (String.utf8EncodeChar d).length := by
      simp [same]
    rw [compare_append_of_length_eq lengths, compare_eq_compare_bigEndian lengths, compare_char,
      compare_eq_of_monotone bigEndian_utf8EncodeChar_lt
        (fun equal => by rw [Char.toNat_inj.mp equal]) bigEndian_utf8EncodeChar_lt]
  · obtain ⟨bytes, chars⟩ := compare_utf8EncodeChar_append_of_utf8Size_lt longer rest' rest
    have swappedBytes :
        compare (String.utf8EncodeChar c ++ rest) (String.utf8EncodeChar d ++ rest') = .gt := by
      rw [OrientedOrd.eq_swap, bytes]
      rfl
    have swappedChars : compare c d = .gt := by
      rw [OrientedOrd.eq_swap, chars]
      rfl
    rw [swappedBytes, swappedChars]
    rfl

theorem compare_flatMap_utf8EncodeChar (xs ys : List Char) :
    compare (xs.flatMap String.utf8EncodeChar) (ys.flatMap String.utf8EncodeChar) =
      compare xs ys := by
  induction xs generalizing ys with
  | nil =>
    cases ys with
    | nil => rfl
    | cons d ys => rw [List.flatMap_cons, utf8EncodeChar_eq_cons d]; rfl
  | cons c xs ih =>
    cases ys with
    | nil => rw [List.flatMap_cons, utf8EncodeChar_eq_cons c]; rfl
    | cons d ys =>
      rw [List.flatMap_cons, List.flatMap_cons, compare_utf8EncodeChar_append, ih,
        List.compare_cons_cons]

/-- Comparing texts is comparing their UTF-8 encodings byte by byte. -/
theorem compare_ofString (s t : String) :
    compare (Bytes.ofString s) (Bytes.ofString t) = compare s t := by
  rw [Bytes.ofString, Bytes.ofString, compare_flatMap_utf8EncodeChar, compare_eq_compare_toList]

end Chaincode.Text
