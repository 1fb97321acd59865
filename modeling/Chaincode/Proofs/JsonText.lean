import Mathlib.Tactic.SplitIfs
import Chaincode.Json.Shape
import Chaincode.Proofs.Utf8
import Chaincode.Proofs.TimestampText

/-!
# Reading back written JSON

The reader walks an array of bytes with the offset of the next byte as its state. A reading
`Yields` a value when, started at one offset, it succeeds with that value and stops at another;
every lemma here is stated on what remains of the input from an offset (`inp.toList.drop i`), in
the form "what was written, then what follows".
-/

namespace Chaincode

@[simp] theorem Bytes.ofString_append (s t : String) :
    Bytes.ofString (s ++ t) = Bytes.ofString s ++ Bytes.ofString t := by
  simp [Bytes.ofString, String.toList_append]

/-- The punctuation of an object is one byte each; stated once so that no proof unfolds the
encoder of a literal. -/
@[simp] theorem Bytes.ofString_colon : Bytes.ofString ":" = [0x3A] := rfl

@[simp] theorem Bytes.ofString_comma : Bytes.ofString "," = [0x2C] := rfl

@[simp] theorem Bytes.ofString_openBrace : Bytes.ofString "\x7b" = [0x7B] := rfl

@[simp] theorem Bytes.ofString_closeBrace : Bytes.ofString "\x7d" = [0x7D] := rfl

namespace Json

variable {α β : Type}

namespace Reader

/-- From offset `i` of the input `inp`, the reading gives `v` and stops at offset `j`. -/
def Yields (x : Reader α) (inp : Array UInt8) (i : Nat) (v : α) (j : Nat) : Prop :=
  (x.run inp).run.run i = (.ok v, j)

section Combinators

variable {inp : Array UInt8} {i j k : Nat}

theorem Yields.bind {x : Reader α} {f : α → Reader β} {a : α} {b : β}
    (first : Yields x inp i a j) (next : Yields (f a) inp j b k) : Yields (x >>= f) inp i b k := by
  simp only [Yields] at *
  simp only [ReaderT.run_bind, ExceptT.run_bind, StateT.run_bind, first]
  exact next

theorem Yields.map {x : Reader α} {f : α → β} {a : α} (read : Yields x inp i a j) :
    Yields (f <$> x) inp i (f a) j := by
  simp only [Yields] at *
  simp only [ReaderT.run_map, ExceptT.run_map, StateT.run_map, read]
  rfl

theorem yields_pure (a : α) : Yields (pure a) inp i a i := rfl

theorem yields_advance : Yields advance inp i () (i + 1) := rfl

theorem yields_seek : Yields (seek j) inp i () j := rfl

theorem yields_input : Yields input inp i inp i := rfl

theorem yields_offset : Yields offset inp i i i := rfl

/-- A reading that succeeds runs as it does without a handler for its failure. -/
theorem Yields.tryCatch {x : Reader α} {handler : ReadError → Reader α} {a : α}
    (read : Yields x inp i a j) : Yields (tryCatch x handler) inp i a j := by
  simp only [Yields] at *
  simp only [MonadExcept.tryCatch, ReaderT.run, tryCatchThe, MonadExceptOf.tryCatch,
    ExceptT.tryCatch, ExceptT.run, ExceptT.mk, StateT.run_bind] at *
  simp only [read]
  rfl

theorem Yields.placed {x : Reader α} {a : α} (read : Yields x inp i a j) :
    Yields (Reader.placed x) inp i a j :=
  read.tryCatch

theorem Yields.attempt {x : Reader α} {a : α} (read : Yields x inp i a j) :
    Yields (Reader.attempt x) inp i (.ok a) j :=
  read.map.tryCatch

theorem yields_finish {a : α} : Yields (finish (.ok a) (.ok ())) inp i a i := rfl

end Combinators

/-! ## The input byte by byte -/

section Bytes

variable {inp : Array UInt8} {i : Nat} {b : UInt8} {w rest : List UInt8}

theorem getElem?_of_drop (here : inp.toList.drop i = b :: rest) : inp[i]? = some b := by
  rw [← Array.getElem?_toList, ← List.head?_drop, here]
  rfl

theorem getElem?_of_drop_nil (done : inp.toList.drop i = []) : inp[i]? = none := by
  rw [← Array.getElem?_toList, ← List.head?_drop, done]
  rfl

theorem drop_add_length (here : inp.toList.drop i = w ++ rest) :
    inp.toList.drop (i + w.length) = rest := by
  rw [← List.drop_drop, here, List.drop_left]

/-- Past one byte and the bytes after it. -/
theorem drop_cons_append (here : inp.toList.drop i = b :: (w ++ rest)) :
    inp.toList.drop (i + 1 + w.length) = rest := by
  have skipped := drop_add_length (w := b :: w) here
  rwa [List.length_cons, ← Nat.add_assoc, Nat.add_right_comm] at skipped

/-- Past one byte; matching the remaining input as a cons, not as an append, keeps the
unifier from unfolding what follows the byte. -/
theorem drop_succ_of_drop (here : inp.toList.drop i = b :: rest) :
    inp.toList.drop (i + 1) = rest :=
  drop_add_length (w := [b]) here

theorem yields_peek : Yields peek inp i inp[i]? i := rfl

theorem yields_peekOrNull (here : inp.toList.drop i = b :: rest) : Yields peekOrNull inp i b i := by
  have read : Yields peekOrNull inp i (inp[i]?.getD 0) i := yields_peek.bind (yields_pure _)
  rwa [getElem?_of_drop here] at read

theorem yields_nextByte (here : inp.toList.drop i = b :: rest) :
    Yields nextByte inp i (some b) (i + 1) := by
  unfold nextByte
  exact yields_peek.bind (by rw [getElem?_of_drop here]; exact yields_advance.bind (yields_pure _))

/-- Blanks are skipped up to a byte that is not one, or to the end. -/
theorem skipBlanksFrom_eq_self (stop : ∀ b, inp[i]? = some b → isJsonBlank b = false) :
    skipBlanksFrom inp i = i := by
  rw [skipBlanksFrom]
  split
  case isTrue inBounds =>
    rw [if_neg]
    simp [stop inp[i] (Array.getElem?_eq_getElem inBounds)]
  case isFalse => rfl

theorem yields_skipWhitespace (stop : ∀ b, inp[i]? = some b → isJsonBlank b = false) :
    Yields skipWhitespace inp i inp[i]? i := by
  unfold skipWhitespace
  refine yields_input.bind (yields_offset.bind ?_)
  simp only [skipBlanksFrom_eq_self stop]
  exact yields_seek.bind (yields_pure _)

/-- A byte that is not blank is looked at where it stands. -/
theorem yields_skipWhitespace_of_drop (here : inp.toList.drop i = b :: rest)
    (notBlank : isJsonBlank b = false) : Yields skipWhitespace inp i (some b) i := by
  have read : Yields skipWhitespace inp i inp[i]? i := yields_skipWhitespace fun b' found => by
    rw [getElem?_of_drop here] at found
    cases found
    exact notBlank
  rwa [getElem?_of_drop here] at read

/-- At the end of the input there is nothing to look at. -/
theorem yields_skipWhitespace_of_end (done : inp.toList.drop i = []) :
    Yields skipWhitespace inp i none i := by
  have read : Yields skipWhitespace inp i inp[i]? i := yields_skipWhitespace fun b' found => by
    rw [getElem?_of_drop_nil done] at found
    cases found
  rwa [getElem?_of_drop_nil done] at read

theorem getElem!_of_drop (here : inp.toList.drop i = b :: rest) : inp[i]! = b := by
  simp [getElem!_def, getElem?_of_drop here]

end Bytes

/-! ## Escapes -/

/-- Whether a string writes a character as an escape: the quote, the backslash and the control
characters. -/
def escaped (c : Char) : Bool := c = '"' || c = '\\' || c.toNat < 0x20

/-- The bytes of a character as a string writes it. -/
def escapedBytes (c : Char) : Bytes := Bytes.ofString (JsonValue.escapeChar c)

theorem escapedBytes_of_not_escaped {c : Char} (plain : escaped c = false) :
    escapedBytes c = String.utf8EncodeChar c := by
  simp only [escaped, Bool.or_eq_false_iff, decide_eq_false_iff_not] at plain
  obtain ⟨⟨notQuote, notBackslash⟩, notControl⟩ := plain
  have notNewline : c ≠ '\n' := fun same => notControl (by rw [same]; decide)
  have notReturn : c ≠ '\r' := fun same => notControl (by rw [same]; decide)
  have notTab : c ≠ '\t' := fun same => notControl (by rw [same]; decide)
  have notBack : c ≠ '\x08' := fun same => notControl (by rw [same]; decide)
  have notFeed : c ≠ '\x0c' := fun same => notControl (by rw [same]; decide)
  simp [escapedBytes, JsonValue.escapeChar, notQuote, notBackslash, notNewline, notReturn, notTab,
    notBack, notFeed, notControl, Bytes.ofString]

/-- A byte of a character's encoding is the character itself, or not ASCII. -/
theorem toNat_of_mem_utf8EncodeChar {c : Char} {b : UInt8} (mem : b ∈ String.utf8EncodeChar c) :
    b.toNat = c.toNat ∨ 0x80 ≤ b.toNat := by
  have code : c.toNat = c.val.toNat := rfl
  simp only [String.utf8EncodeChar] at mem
  split_ifs at mem <;> simp only [List.mem_cons, List.not_mem_nil, or_false] at mem <;>
    rcases mem with rfl | rfl | rfl | rfl <;> simp only [UInt8.toNat_ofNat'] <;> omega

/-- The bytes of a character written as it is never end a run of plain string content. -/
theorem isStringStop_of_not_escaped {c : Char} {b : UInt8} (plain : escaped c = false)
    (mem : b ∈ String.utf8EncodeChar c) : isStringStop b = false := by
  have code : c.toNat = c.val.toNat := rfl
  simp only [escaped, Bool.or_eq_false_iff, decide_eq_false_iff_not] at plain
  obtain ⟨⟨notQuote, notBackslash⟩, notControl⟩ := plain
  have quoteCode : c.toNat ≠ 0x22 := fun same => notQuote (Char.ext (UInt32.toNat_inj.mp same))
  have backslashCode : c.toNat ≠ 0x5C :=
    fun same => notBackslash (Char.ext (UInt32.toNat_inj.mp same))
  have byte := toNat_of_mem_utf8EncodeChar mem
  simp only [isStringStop, Bool.or_eq_false_iff, decide_eq_false_iff_not, UInt8.lt_iff_toNat_lt]
  refine ⟨⟨fun same => ?_, fun same => ?_⟩, ?_⟩
  · rw [same] at byte
    simp at byte
    omega
  · rw [same] at byte
    simp at byte
    omega
  · simp
    omega

theorem ofString_quote (s : String) :
    Bytes.ofString (JsonValue.quote s) = 0x22 :: s.toList.flatMap escapedBytes ++ [0x22] := by
  have quoteByte : String.utf8EncodeChar '"' = [0x22] := rfl
  simp [JsonValue.quote, Bytes.ofString, String.toList_append, String.toList_join, quoteByte,
    List.flatMap_assoc, List.flatMap_map]
  rfl

section Escapes

variable {inp : Array UInt8} {i : Nat} {rest : List UInt8}

/-- Four hexadecimal digits read as the number they write. -/
theorem yields_hexEscape {b₀ b₁ b₂ b₃ : UInt8} {d₀ d₁ d₂ d₃ : Nat}
    (here : inp.toList.drop i = b₀ :: b₁ :: b₂ :: b₃ :: rest) (digit₀ : hexValue? b₀ = some d₀)
    (digit₁ : hexValue? b₁ = some d₁) (digit₂ : hexValue? b₂ = some d₂)
    (digit₃ : hexValue? b₃ = some d₃) :
    Yields hexEscape inp i (((d₀ * 16 + d₁) * 16 + d₂) * 16 + d₃) (i + 4) := by
  have long : i + 4 ≤ inp.size := by
    have length := congrArg List.length here
    simp only [List.length_drop, Array.length_toList, List.length_cons] at length
    omega
  have next₁ : inp.toList.drop (i + 1) = b₁ :: b₂ :: b₃ :: rest := drop_add_length (w := [b₀]) here
  have next₂ : inp.toList.drop (i + 2) = b₂ :: b₃ :: rest :=
    drop_add_length (w := [b₀, b₁]) here
  have next₃ : inp.toList.drop (i + 3) = b₃ :: rest := drop_add_length (w := [b₀, b₁, b₂]) here
  unfold hexEscape
  refine yields_input.bind (yields_offset.bind ?_)
  rw [if_pos long, getElem!_of_drop here, getElem!_of_drop next₁, getElem!_of_drop next₂,
    getElem!_of_drop next₃, digit₀, digit₁, digit₂, digit₃]
  exact yields_seek.bind (yields_pure _)

theorem utf8EncodeChar_hexDigit {n : Nat} (small : n < 16) :
    String.utf8EncodeChar (Bytes.hexDigit n) = [(Bytes.hexDigit n).toNat.toUInt8] :=
  (by decide : ∀ m : Fin 16, String.utf8EncodeChar (Bytes.hexDigit m) =
    [(Bytes.hexDigit m).toNat.toUInt8]) ⟨n, small⟩

theorem hexValue?_hexDigit {n : Nat} (small : n < 16) :
    hexValue? (Bytes.hexDigit n).toNat.toUInt8 = some n :=
  (by decide : ∀ m : Fin 16, hexValue? (Bytes.hexDigit m).toNat.toUInt8 = some m.val) ⟨n, small⟩

/-- How a character that a string writes with an escape is written: the seven with a short escape
as a backslash and one letter, any other control character as a backslash, u00 and two
hexadecimal digits. The cases follow the branches of the escape, in its order. -/
theorem escapedBytes_of_escaped {c : Char} (special : escaped c = true) :
    c = '"' ∧ escapedBytes c = [0x5C, 0x22] ∨ c = '\\' ∧ escapedBytes c = [0x5C, 0x5C] ∨
      c = '\n' ∧ escapedBytes c = [0x5C, 0x6E] ∨ c = '\r' ∧ escapedBytes c = [0x5C, 0x72] ∨
      c = '\t' ∧ escapedBytes c = [0x5C, 0x74] ∨ c = '\x08' ∧ escapedBytes c = [0x5C, 0x62] ∨
      c = '\x0c' ∧ escapedBytes c = [0x5C, 0x66] ∨
      c.toNat < 0x20 ∧ escapedBytes c = [0x5C, 0x75, 0x30, 0x30,
        (Bytes.hexDigit (c.toNat / 16)).toNat.toUInt8, (Bytes.hexDigit (c.toNat % 16)).toNat.toUInt8] := by
  simp only [escaped, Bool.or_eq_true, decide_eq_true_eq] at special
  have written : escapedBytes c = Bytes.ofString (JsonValue.escapeChar c) := rfl
  unfold JsonValue.escapeChar at written
  -- one case per branch of the escape, rewriting its condition rather than splitting the whole
  -- chain at once, which would decide every other condition on the literal characters
  by_cases quote : c = '"'
  · rw [if_pos quote] at written
    exact .inl ⟨quote, written⟩
  rw [if_neg quote] at written
  refine .inr ?_
  by_cases backslash : c = '\\'
  · rw [if_pos backslash] at written
    exact .inl ⟨backslash, written⟩
  rw [if_neg backslash] at written
  refine .inr ?_
  by_cases newline : c = '\n'
  · rw [if_pos newline] at written
    exact .inl ⟨newline, written⟩
  rw [if_neg newline] at written
  refine .inr ?_
  by_cases carriage : c = '\r'
  · rw [if_pos carriage] at written
    exact .inl ⟨carriage, written⟩
  rw [if_neg carriage] at written
  refine .inr ?_
  by_cases tab : c = '\t'
  · rw [if_pos tab] at written
    exact .inl ⟨tab, written⟩
  rw [if_neg tab] at written
  refine .inr ?_
  by_cases back : c = '\x08'
  · rw [if_pos back] at written
    exact .inl ⟨back, written⟩
  rw [if_neg back] at written
  refine .inr ?_
  by_cases feed : c = '\x0c'
  · rw [if_pos feed] at written
    exact .inl ⟨feed, written⟩
  rw [if_neg feed] at written
  refine .inr ?_
  have control : c.toNat < 0x20 := by
    rcases special with (same | same) | small
    · exact absurd same quote
    · exact absurd same backslash
    · exact small
  have hiSmall : c.toNat / 16 < 16 := by omega
  have loSmall : c.toNat % 16 < 16 := by omega
  rw [if_pos control] at written
  refine ⟨control, ?_⟩
  rw [written]
  simp only [Bytes.ofString, String.toList_append, String.toList_ofList, List.flatMap_append,
    List.flatMap_cons, List.flatMap_nil, utf8EncodeChar_hexDigit hiSmall,
    utf8EncodeChar_hexDigit loSmall]
  rfl

/-- A character written with an escape starts with a backslash. -/
theorem escapedBytes_eq_cons {c : Char} (special : escaped c = true) :
    escapedBytes c = 0x5C :: (escapedBytes c).tail := by
  rcases escapedBytes_of_escaped special with ⟨-, written⟩ | ⟨-, written⟩ | ⟨-, written⟩ |
    ⟨-, written⟩ | ⟨-, written⟩ | ⟨-, written⟩ | ⟨-, written⟩ | ⟨-, written⟩ <;>
    rw [written, List.tail_cons]

/-- The escape of a character that a string writes with one, read after its backslash. -/
theorem yields_escape {c : Char} (special : escaped c = true)
    (here : inp.toList.drop i = (escapedBytes c).tail ++ rest) :
    Yields escape inp i (String.utf8EncodeChar c) (i + (escapedBytes c).tail.length) := by
  rcases escapedBytes_of_escaped special with ⟨rfl, written⟩ | ⟨rfl, written⟩ | ⟨rfl, written⟩ |
    ⟨rfl, written⟩ | ⟨rfl, written⟩ | ⟨rfl, written⟩ | ⟨rfl, written⟩ | ⟨control, written⟩ <;>
    rw [written, List.tail_cons] at here ⊢
  -- the seven short escapes: the letter after the backslash names the character
  iterate 7 exact (yields_nextByte here).bind (yields_pure _)
  -- any other control character is written as \u00 and two hexadecimal digits
  have hiSmall : c.toNat / 16 < 16 := by omega
  have loSmall : c.toNat % 16 < 16 := by omega
  refine (yields_nextByte here).bind ?_
  show Yields unicodeEscape inp (i + 1) _ _
  unfold unicodeEscape
  have zero : hexValue? 0x30 = some 0 := rfl
  refine (yields_hexEscape (drop_add_length (w := [0x75]) here) zero zero
    (hexValue?_hexDigit hiSmall) (hexValue?_hexDigit loSmall)).bind ?_
  have value : ((0 * 16 + 0) * 16 + c.toNat / 16) * 16 + c.toNat % 16 = c.toNat := by omega
  have decoded : codePointBytes c.toNat = String.utf8EncodeChar c := by
    rw [codePointBytes, Char.ofNat_toNat]
  rw [value, if_neg (by omega), if_pos (by omega), decoded]
  exact yields_pure _

end Escapes

/-! ## Strings -/

section Strings

variable {inp : Array UInt8} {i : Nat} {rest : List UInt8}

/-- Plain content is skipped up to the byte that ends it. -/
theorem skipPlainFrom_eq {P : List UInt8} {b : UInt8} (plain : ∀ x ∈ P, isStringStop x = false)
    (stop : isStringStop b = true) (here : inp.toList.drop i = P ++ b :: rest) :
    skipPlainFrom inp i = i + P.length := by
  induction P generalizing i with
  | nil =>
    have found := getElem?_of_drop here
    obtain ⟨inBounds, byte⟩ := Array.getElem?_eq_some_iff.mp found
    rw [skipPlainFrom, dif_pos inBounds, if_pos (by rw [byte]; exact stop)]
    rfl
  | cons x P ih =>
    have found := getElem?_of_drop here
    obtain ⟨inBounds, byte⟩ := Array.getElem?_eq_some_iff.mp found
    have notStop : isStringStop x = false := plain x List.mem_cons_self
    have next : inp.toList.drop (i + 1) = P ++ b :: rest := drop_add_length (w := [x]) here
    rw [skipPlainFrom, dif_pos inBounds, if_neg (by rw [byte, notStop]; decide),
      ih (fun y mem => plain y (List.mem_cons_of_mem x mem)) next]
    simp only [List.length_cons]
    omega

theorem extract_of_drop {P : List UInt8} (here : inp.toList.drop i = P ++ rest) :
    inp.extract i (i + P.length) = P.toArray := by
  apply Array.ext'
  rw [Array.toList_extract, List.extract_eq_take_drop, here, Nat.add_sub_cancel_left,
    List.take_left, List.toList_toArray]

/-- A round of string content ending at the closing quote gives the content before it. -/
theorem yields_stringBytes_quote {P : List UInt8} {acc : Array UInt8} {fuel : Nat}
    (plain : ∀ x ∈ P, isStringStop x = false) (here : inp.toList.drop i = P ++ 0x22 :: rest) :
    Yields (stringBytes (fuel + 1) acc) inp i (acc ++ P.toArray) (i + P.length + 1) := by
  rw [stringBytes]
  refine yields_input.bind (yields_offset.bind ?_)
  simp only [skipPlainFrom_eq plain rfl here, extract_of_drop here,
    getElem?_of_drop (drop_add_length here)]
  exact yields_seek.bind (yields_pure _)

/-- A round of string content ending at a backslash reads the escape and goes on. -/
theorem yields_stringBytes_backslash {P e : List UInt8} {acc : Array UInt8} {fuel j k : Nat}
    {v : Array UInt8} (plain : ∀ x ∈ P, isStringStop x = false)
    (here : inp.toList.drop i = P ++ 0x5C :: rest) (escaping : Yields escape inp (i + P.length + 1) e j)
    (next : Yields (stringBytes fuel (acc ++ P.toArray ++ e.toArray)) inp j v k) :
    Yields (stringBytes (fuel + 1) acc) inp i v k := by
  rw [stringBytes]
  refine yields_input.bind (yields_offset.bind ?_)
  simp only [skipPlainFrom_eq plain rfl here, extract_of_drop here,
    getElem?_of_drop (drop_add_length here)]
  exact yields_seek.bind (escaping.bind next)

/-- The written characters of a string, after plain content `P` already passed over, read back
as their encoding: one round of the loop per escape, and one for the closing quote. -/
theorem yields_stringBytes_chars (cs : List Char) {P : List UInt8} {acc : Array UInt8}
    {fuel : Nat} (plain : ∀ x ∈ P, isStringStop x = false)
    (here : inp.toList.drop i = P ++ cs.flatMap escapedBytes ++ 0x22 :: rest)
    (enough : (cs.filter escaped).length < fuel) :
    Yields (stringBytes fuel acc) inp i (acc ++ (P ++ cs.flatMap String.utf8EncodeChar).toArray)
      (i + (P ++ cs.flatMap escapedBytes).length + 1) := by
  induction cs generalizing P acc fuel i with
  | nil =>
    obtain ⟨fuel, rfl⟩ : ∃ f, fuel = f + 1 := ⟨fuel - 1, by simp at enough; omega⟩
    simp only [List.flatMap_nil, List.append_nil] at here ⊢
    exact yields_stringBytes_quote plain here
  | cons c more ih =>
    cases special : escaped c with
    | false =>
      -- a character written as it is joins the plain content
      have bytes := escapedBytes_of_not_escaped special
      have plain' : ∀ x ∈ P ++ String.utf8EncodeChar c, isStringStop x = false := by
        intro x mem
        rcases List.mem_append.mp mem with old | new
        · exact plain x old
        · exact isStringStop_of_not_escaped special new
      have read : Yields (stringBytes fuel acc) inp i _ _ :=
        ih plain' (by simpa [bytes] using here) (by simpa [special] using enough)
      simpa [bytes] using read
    | true =>
      obtain ⟨fuel, rfl⟩ : ∃ f, fuel = f + 1 :=
        ⟨fuel - 1, by simp [special] at enough; omega⟩
      have head := escapedBytes_eq_cons special
      have atBackslash : inp.toList.drop i =
          P ++ 0x5C :: ((escapedBytes c).tail ++ more.flatMap escapedBytes ++ 0x22 :: rest) := by
        rw [here, List.flatMap_cons, head]
        simp
      have afterBackslash : inp.toList.drop (i + P.length + 1) =
          (escapedBytes c).tail ++ (more.flatMap escapedBytes ++ 0x22 :: rest) := by
        have skipped := drop_add_length (w := P ++ [0x5C]) (by simpa using atBackslash)
        simpa [Nat.add_assoc] using skipped
      have afterEscape := drop_add_length afterBackslash
      -- after the escape, the rest of the characters with no plain content pending
      have read : Yields (stringBytes fuel (acc ++ P.toArray ++ (String.utf8EncodeChar c).toArray))
          inp (i + P.length + 1 + (escapedBytes c).tail.length) _ _ :=
        ih (P := []) (by simp) afterEscape (by simpa [special] using enough)
      have whole := yields_stringBytes_backslash plain atBackslash
        (yields_escape special afterBackslash) read
      have value : acc ++ (P ++ (String.utf8EncodeChar c ++ more.flatMap String.utf8EncodeChar)).toArray =
          acc ++ P.toArray ++ (String.utf8EncodeChar c).toArray ++
            ([] ++ more.flatMap String.utf8EncodeChar).toArray := by
        simp [Array.append_assoc]
      have offset : i + (P ++ (escapedBytes c ++ more.flatMap escapedBytes)).length + 1 =
          i + P.length + 1 + (escapedBytes c).tail.length +
            ([] ++ more.flatMap escapedBytes).length + 1 := by
        have length : (escapedBytes c).length = (escapedBytes c).tail.length + 1 := by
          rw [List.length_tail]
          have : 0 < (escapedBytes c).length := by rw [head]; simp
          omega
        simp only [List.length_append, length, List.nil_append]
        omega
      rw [List.flatMap_cons, List.flatMap_cons, value, offset]
      exact whole

theorem length_le_flatMap_escapedBytes (cs : List Char) :
    cs.length ≤ (cs.flatMap escapedBytes).length := by
  induction cs with
  | nil => simp
  | cons c more ih =>
    have written : 0 < (escapedBytes c).length := by
      cases special : escaped c with
      | false => simp [escapedBytes_of_not_escaped special, Char.utf8Size_pos]
      | true => rw [escapedBytes_eq_cons special]; simp
    simp only [List.length_cons, List.flatMap_cons, List.length_append]
    omega

/-- A written string, after its opening quote, reads back as the string. -/
theorem yields_parseString (s : String)
    (here : inp.toList.drop i = s.toList.flatMap escapedBytes ++ 0x22 :: rest) :
    Yields parseString inp i s (i + (s.toList.flatMap escapedBytes).length + 1) := by
  have enough : (s.toList.filter escaped).length < inp.size + 1 := by
    have fits := congrArg List.length here
    simp only [List.length_drop, Array.length_toList, List.length_append, List.length_cons] at fits
    have fewer := List.length_filter_le escaped s.toList
    have written := length_le_flatMap_escapedBytes s.toList
    omega
  unfold parseString
  refine yields_input.bind ((yields_stringBytes_chars (P := []) s.toList (by simp) here
    enough).bind ?_)
  simp only [List.nil_append, Array.empty_append, List.toList_toArray]
  rw [show s.toList.flatMap String.utf8EncodeChar = Bytes.ofString s from rfl,
    Text.Utf8.decode_ofString]
  exact yields_pure s

end Strings

/-! ## Numbers -/

section Numbers

variable {inp : Array UInt8} {i : Nat} {rest : List UInt8} {b : UInt8}

theorem utf8EncodeChar_of_lt {c : Char} (small : c.toNat < 128) :
    String.utf8EncodeChar c = [ascii c] := by
  have code : c.toNat = c.val.toNat := rfl
  simp only [String.utf8EncodeChar, show c.val.toNat ≤ 127 by omega, if_true]
  rfl

theorem toNat_ascii {c : Char} (small : c.toNat < 256) : (ascii c).toNat = c.toNat := by
  simp only [ascii, Nat.toUInt8_eq, UInt8.toNat_ofNat']
  omega

theorem toNat_of_isDigit {c : Char} (digit : c.isDigit = true) : 48 ≤ c.toNat ∧ c.toNat ≤ 57 := by
  simpa [Char.isDigit, Char.le_def, UInt32.le_iff_toNat_le] using digit

theorem isDigit_ascii {c : Char} (digit : c.isDigit = true) : isDigit (ascii c) = true := by
  have range := toNat_of_isDigit digit
  have byte := toNat_ascii (c := c) (by omega)
  simp only [isDigit, Bool.and_eq_true, decide_eq_true_eq, UInt8.le_iff_toNat_le, byte]
  exact ⟨by simp; omega, by simp; omega⟩

/-- The bytes of a written natural number are its decimal digits. -/
theorem ofString_toString_nat (n : Nat) :
    Bytes.ofString (toString n) = (Nat.toDigits 10 n).map ascii := by
  rw [Bytes.ofString, Nat.toString_eq_ofList_toDigits, String.toList_ofList, List.map_eq_flatMap]
  refine List.flatMap_congr fun c mem => utf8EncodeChar_of_lt ?_
  have range := toNat_of_isDigit (Nat.isDigit_of_mem_toDigits (by omega) (by omega) mem)
  omega

/-- The digits of a number read into a running value never make it smaller. -/
theorem le_foldl_digits (cs : List Char) (v : Nat) :
    v ≤ cs.foldl (fun v c => v * 10 + (c.toNat - 48)) v := by
  induction cs generalizing v with
  | nil => exact Nat.le_refl v
  | cons c cs ih =>
    have next := ih (v * 10 + (c.toNat - 48))
    simp only [List.foldl_cons]
    omega

/-- The most significant digit of a positive number is not zero. -/
theorem exists_toDigits_eq_cons {n : Nat} (pos : 0 < n) :
    ∃ d ds, Nat.toDigits 10 n = d :: ds ∧ d ≠ '0' := by
  induction n using Nat.strong_induction_on with
  | _ n ih =>
    rw [Nat.toDigits_eq_if (by omega)]
    split
    case isTrue small =>
      refine ⟨_, [], rfl, fun zero => ?_⟩
      have code := congrArg Char.toNat zero
      rw [Nat.toNat_digitChar_of_lt_ten small] at code
      simp at code
      omega
    case isFalse large =>
      obtain ⟨d, ds, digits, lead⟩ := ih (n / 10) (by omega) (by omega)
      exact ⟨d, ds ++ [(n % 10).digitChar], by rw [digits]; rfl, lead⟩

/-- A comma or a closing brace: what follows the value of a record's member. -/
def Delimits (b : UInt8) : Prop := b = 0x2C ∨ b = 0x7D

theorem yields_numberTail {v : Nat} (here : inp.toList.drop i = b :: rest) (delimits : Delimits b) :
    Yields (numberTail true v) inp i (.unsigned v) i := by
  unfold numberTail
  refine (yields_peekOrNull here).bind ?_
  rcases delimits with rfl | rfl <;> exact yields_pure _

/-- The digits of an integer after its first, read to the delimiter after them. -/
theorem yields_integerDigits (cs : List Char) {v fuel : Nat} (digits : ∀ c ∈ cs, c.isDigit = true)
    (here : inp.toList.drop i = cs.map ascii ++ b :: rest) (delimits : Delimits b)
    (small : cs.foldl (fun v c => v * 10 + (c.toNat - 48)) v ≤ u64Max)
    (enough : cs.length ≤ fuel) :
    Yields (integerDigits fuel true v) inp i
      (.unsigned (cs.foldl (fun v c => v * 10 + (c.toNat - 48)) v)) (i + cs.length) := by
  induction cs generalizing v fuel i with
  | nil =>
    have notDigit : isDigit b = false := by rcases delimits with rfl | rfl <;> rfl
    cases fuel with
    | zero => exact yields_numberTail here delimits
    | succ fuel =>
      rw [integerDigits]
      refine (yields_peekOrNull here).bind ?_
      rw [if_neg (by rw [notDigit]; decide)]
      exact yields_numberTail here delimits
  | cons c cs ih =>
    obtain ⟨fuel, rfl⟩ : ∃ f, fuel = f + 1 := ⟨fuel - 1, by simp at enough; omega⟩
    have digit := digits c List.mem_cons_self
    have byte := toNat_ascii (c := c) (by have := toNat_of_isDigit digit; omega)
    have within : v * 10 + (c.toNat - 48) ≤ u64Max :=
      (le_foldl_digits cs _).trans (by simpa using small)
    rw [integerDigits]
    refine (yields_peekOrNull (by simpa using here)).bind ?_
    rw [if_pos (isDigit_ascii digit), byte, if_neg (by omega)]
    refine yields_advance.bind ?_
    have read := ih (fun c' mem => digits c' (List.mem_cons_of_mem c mem))
      (drop_add_length (w := [ascii c]) (by simpa using here)) (by simpa using small)
      (show cs.length ≤ fuel by simpa using enough)
    simpa [Nat.add_assoc, Nat.add_comm 1] using read

/-- A written natural number below 2^64 reads as that number. -/
theorem yields_parseInteger {n : Nat} (small : n < 2 ^ 64)
    (here : inp.toList.drop i = Bytes.ofString (toString n) ++ b :: rest) (delimits : Delimits b) :
    Yields (parseInteger true) inp i (.unsigned n) (i + (Bytes.ofString (toString n)).length) := by
  have notDigit : isDigit b = false := by rcases delimits with rfl | rfl <;> rfl
  have value : (Nat.toDigits 10 n).foldl (fun v c => v * 10 + (c.toNat - 48)) 0 = n := by
    simpa using Timestamp.foldl_toDigits (R := Nat) n 0
  rw [ofString_toString_nat] at here ⊢
  unfold parseInteger
  rcases Nat.eq_zero_or_pos n with rfl | pos
  · -- zero is written as its one digit, which no digit may follow
    have after := drop_add_length (w := [0x30]) here
    refine (yields_nextByte here).bind ?_
    refine (yields_peekOrNull after).bind ?_
    rw [if_neg (by rw [notDigit]; decide)]
    exact yields_numberTail after delimits
  · obtain ⟨d, ds, digits, lead⟩ := exists_toDigits_eq_cons pos
    have bound : n ≤ u64Max := by unfold u64Max; omega
    have digitOf : ∀ c ∈ Nat.toDigits 10 n, c.isDigit = true :=
      fun c mem => Nat.isDigit_of_mem_toDigits (by omega) (by omega) mem
    rw [digits] at here value digitOf ⊢
    have digit : d.isDigit = true := digitOf d List.mem_cons_self
    have range := toNat_of_isDigit digit
    have byte := toNat_ascii (c := d) (by omega)
    have notZero : ascii d ≠ 0x30 := fun same => lead (by
      have code := congrArg UInt8.toNat same
      rw [byte] at code
      exact Char.ext (UInt32.toNat_inj.mp code))
    have fits : ds.length ≤ inp.size := by
      have length := congrArg List.length here
      simp only [List.length_drop, Array.length_toList, List.length_append, List.length_map,
        List.length_cons] at length
      omega
    refine (yields_nextByte here).bind ?_
    dsimp only
    rw [if_neg notZero, if_pos (isDigit_ascii digit)]
    refine yields_input.bind ?_
    simp only [List.foldl_cons, Nat.zero_mul, Nat.zero_add] at value
    have read : Yields (integerDigits inp.size true (d.toNat - 48)) inp (i + 1) _ _ :=
      yields_integerDigits ds (fun c mem => digitOf c (List.mem_cons_of_mem d mem))
        (drop_add_length (w := [ascii d]) here) delimits (by omega) fits
    rw [byte]
    simpa [value, Nat.add_assoc, Nat.add_comm 1] using read

/-- A written natural number below 2^64 reads back as that number. -/
theorem yields_readNat64 {n : Nat} (small : n < 2 ^ 64)
    (here : inp.toList.drop i = Bytes.ofString (toString n) ++ b :: rest) (delimits : Delimits b) :
    Yields readNat64 inp i n (i + (Bytes.ofString (toString n)).length) := by
  obtain ⟨first, others, digits⟩ :=
    List.exists_cons_of_ne_nil (Nat.toDigits_ne_nil : Nat.toDigits 10 n ≠ [])
  have mem : first ∈ Nat.toDigits 10 n := by
    rw [digits]
    exact List.mem_cons_self
  have digit : first.isDigit = true := Nat.isDigit_of_mem_toDigits (by omega) (by omega) mem
  have atFirst : inp.toList.drop i = ascii first :: (others.map ascii ++ b :: rest) := by
    rw [here, ofString_toString_nat, digits]
    rfl
  have notBlank : isJsonBlank (ascii first) = false := by
    have range := toNat_of_isDigit digit
    have byte := toNat_ascii (c := first) (by omega)
    simp only [isJsonBlank, Bool.or_eq_false_iff, decide_eq_false_iff_not]
    refine ⟨⟨⟨?_, ?_⟩, ?_⟩, ?_⟩ <;> intro same <;> rw [same] at byte <;> simp at byte <;> omega
  unfold readNat64
  refine Yields.placed ((yields_skipWhitespace_of_drop atFirst notBlank).bind ?_)
  have range := toNat_of_isDigit digit
  have byte := toNat_ascii (c := first) (by omega)
  split
  · next _ same => cases same
  · next _ same =>
    have code := congrArg UInt8.toNat (Option.some.inj same)
    rw [byte] at code
    simp at code
    omega
  · next _ first' _ same =>
    obtain rfl := Option.some.inj same
    rw [if_pos (isDigit_ascii digit)]
    exact (yields_parseInteger small here delimits).bind (yields_pure n)

end Numbers

/-! ## Scalars -/

section Scalars

variable {inp : Array UInt8} {i : Nat} {rest : List UInt8} {b : UInt8}

theorem yields_expectIdent (w : List UInt8) (here : inp.toList.drop i = w ++ rest) :
    Yields (expectIdent w) inp i () (i + w.length) := by
  induction w generalizing i with
  | nil => exact yields_pure ()
  | cons x w ih =>
    rw [expectIdent]
    refine (yields_nextByte here).bind ?_
    dsimp only
    rw [if_pos rfl]
    have read := ih (drop_add_length (w := [x]) here)
    simpa [Nat.add_assoc, Nat.add_comm 1] using read

/-- A written string, from its opening quote, reads back as itself. -/
theorem yields_quoted (s : String) (here : inp.toList.drop i = Bytes.ofString (JsonValue.quote s) ++ rest) :
    inp.toList.drop i = 0x22 :: (s.toList.flatMap escapedBytes ++ 0x22 :: rest) ∧
      Yields parseString inp (i + 1) s (i + (Bytes.ofString (JsonValue.quote s)).length) := by
  rw [ofString_quote] at here ⊢
  have atQuote : inp.toList.drop i = 0x22 :: (s.toList.flatMap escapedBytes ++ 0x22 :: rest) := by
    simpa using here
  refine ⟨atQuote, ?_⟩
  have read := yields_parseString s (drop_add_length (w := [0x22]) atQuote)
  simpa [Nat.add_assoc, Nat.add_comm 1] using read

theorem yields_readText (s : String)
    (here : inp.toList.drop i = Bytes.ofString (JsonValue.quote s) ++ rest) :
    Yields readText inp i s (i + (Bytes.ofString (JsonValue.quote s)).length) := by
  obtain ⟨atQuote, read⟩ := yields_quoted s here
  unfold readText
  exact Yields.placed ((yields_skipWhitespace_of_drop atQuote rfl).bind
    (yields_advance.bind read))

theorem yields_readVariant {names : List String} {name : String} (mem : name ∈ names)
    (here : inp.toList.drop i = Bytes.ofString (JsonValue.quote name) ++ rest) :
    Yields (readVariant names) inp i name (i + (Bytes.ofString (JsonValue.quote name)).length) := by
  obtain ⟨atQuote, read⟩ := yields_quoted name here
  unfold readVariant readVariantName
  refine (yields_skipWhitespace_of_drop atQuote rfl).bind ?_
  refine Yields.placed ((yields_skipWhitespace_of_drop atQuote rfl).bind
    (yields_advance.bind (read.bind ?_)))
  rw [if_pos (List.elem_iff.mpr mem)]
  exact yields_pure name

theorem yields_readInstant {t : Timestamp} (valid : t.Valid)
    (here : inp.toList.drop i = Bytes.ofString (JsonValue.quote t.render) ++ rest) :
    Yields readInstant inp i t (i + (Bytes.ofString (JsonValue.quote t.render)).length) := by
  obtain ⟨atQuote, read⟩ := yields_quoted t.render here
  unfold readInstant
  refine Yields.placed ((yields_skipWhitespace_of_drop atQuote rfl).bind
    (yields_advance.bind (read.bind ?_)))
  rw [Timestamp.parse_render valid]
  exact yields_pure t

end Scalars

end Reader

/-! ## Data of a shape -/

/-- A datum that its written form carries exactly: a text, a natural number below 2^64, an
instant that reads back as itself, or one of the names its shape allows. -/
inductive Scalar : Shape → Datum → Prop
  | text (s : String) : Scalar .text (.text s)
  | nat {n : Nat} (small : n < 2 ^ 64) : Scalar .nat64 (.nat n)
  | instant {t : Timestamp} (valid : t.Valid) : Scalar .instant (.instant t)
  | variant {names : List String} {name : String} (mem : name ∈ names) :
      Scalar (.variants names) (.variant name)

/-- The value of a record's field: a scalar, or an optional scalar whose absence is `null`. -/
inductive FieldValue : Shape → Datum → Prop
  | scalar {shape : Shape} {d : Datum} (scalar : Scalar shape d) : FieldValue shape d
  | none (inner : Shape) : FieldValue (.optional inner) .none
  | some {inner : Shape} {d : Datum} (scalar : Scalar inner d) : FieldValue (.optional inner) (.some d)

/-- A scalar is written starting with a quote or a digit. -/
theorem Scalar.exists_cons {shape : Shape} {d : Datum} (scalar : Scalar shape d) :
    ∃ first others, Bytes.ofString d.toJson.render = first :: others ∧
      (first = 0x22 ∨ isDigit first = true) := by
  cases scalar with
  | @nat n small =>
    obtain ⟨first, others, digits⟩ :=
      List.exists_cons_of_ne_nil (Nat.toDigits_ne_nil : Nat.toDigits 10 n ≠ [])
    have mem : first ∈ Nat.toDigits 10 n := by
      rw [digits]
      exact List.mem_cons_self
    refine ⟨ascii first, others.map ascii, ?_, .inr (Reader.isDigit_ascii
      (Nat.isDigit_of_mem_toDigits (by omega) (by omega) mem))⟩
    simp only [Datum.toJson, JsonValue.render, JsonNumber.render]
    rw [Reader.ofString_toString_nat, digits]
    rfl
  | text s => exact ⟨_, _, by simp only [Datum.toJson, JsonValue.render, Reader.ofString_quote]; rfl, .inl rfl⟩
  | instant valid =>
    exact ⟨_, _, by simp only [Datum.toJson, JsonValue.render, Reader.ofString_quote]; rfl, .inl rfl⟩
  | variant mem =>
    exact ⟨_, _, by simp only [Datum.toJson, JsonValue.render, Reader.ofString_quote]; rfl, .inl rfl⟩

namespace Reader

variable {inp : Array UInt8} {i : Nat} {rest : List UInt8} {b : UInt8}

/-- A scalar reads back from its written form, up to the delimiter after it. -/
theorem yields_read_scalar {shape : Shape} {d : Datum} (fuel : Nat) (scalar : Scalar shape d)
    (here : inp.toList.drop i = Bytes.ofString d.toJson.render ++ b :: rest) (delimits : Delimits b) :
    Yields (read (fuel + 1) shape) inp i d (i + (Bytes.ofString d.toJson.render).length) := by
  cases scalar with
  | text s => exact (yields_readText s here).map
  | nat small => exact (yields_readNat64 small here delimits).map
  | instant valid => exact (yields_readInstant valid here).map
  | variant mem => exact (yields_readVariant mem here).map

/-- The value of a field reads back from its written form, up to the delimiter after it. -/
theorem yields_read_field {shape : Shape} {d : Datum} (fuel : Nat) (value : FieldValue shape d)
    (here : inp.toList.drop i = Bytes.ofString d.toJson.render ++ b :: rest) (delimits : Delimits b) :
    Yields (read (fuel + 2) shape) inp i d (i + (Bytes.ofString d.toJson.render).length) := by
  cases value with
  | scalar scalar => exact yields_read_scalar (fuel + 1) scalar here delimits
  | none inner =>
    have atNull : inp.toList.drop i = 0x6E :: ([0x75, 0x6C, 0x6C] ++ b :: rest) := here
    rw [read]
    refine (yields_skipWhitespace_of_drop atNull rfl).bind ?_
    exact yields_advance.bind
      ((yields_expectIdent _ (drop_add_length (w := [0x6E]) atNull)).bind (yields_pure _))
  | some scalar =>
    obtain ⟨first, others, bytes, opening⟩ := scalar.exists_cons
    have atFirst : inp.toList.drop i = first :: (others ++ b :: rest) := by
      rw [here]
      simp only [Datum.toJson, bytes, List.cons_append]
    have notBlank : isJsonBlank first = false := by
      rcases opening with rfl | digit
      · rfl
      · simp only [isDigit, Bool.and_eq_true, decide_eq_true_eq] at digit
        simp only [isJsonBlank, Bool.or_eq_false_iff, decide_eq_false_iff_not]
        refine ⟨⟨⟨?_, ?_⟩, ?_⟩, ?_⟩ <;> rintro rfl <;> simp at digit
    rw [read]
    refine (yields_skipWhitespace_of_drop atFirst notBlank).bind ?_
    split
    · next same =>
      obtain rfl := Option.some.inj same
      rcases opening with same | digit
      · cases same
      · simp [isDigit] at digit
    · exact (yields_read_scalar fuel scalar here delimits).map

end Reader

/-! ## Records -/

/-- The written bytes of an object's member: its quoted name, a colon and its value. -/
def memberBytes (k : String) (v : JsonValue) : Bytes :=
  Bytes.ofString (JsonValue.quote k) ++ 0x3A :: Bytes.ofString v.render

theorem ofString_renderMembers (m : String × JsonValue) (ms : List (String × JsonValue)) :
    Bytes.ofString (JsonValue.renderMembers (m :: ms)) =
      memberBytes m.1 m.2 ++ ms.flatMap fun m => 0x2C :: memberBytes m.1 m.2 := by
  induction ms generalizing m with
  | nil =>
    simp [JsonValue.renderMembers, memberBytes]
  | cons m' ms ih =>
    simp [JsonValue.renderMembers, memberBytes, ih]

theorem fieldsToJson_eq_map (ds : List (String × Datum)) :
    Datum.fieldsToJson ds = ds.map fun m => (m.1, m.2.toJson) := by
  induction ds with
  | nil => rfl
  | cons m ds ih =>
    simp [Datum.fieldsToJson, ih]

namespace Reader

variable {inp : Array UInt8} {i : Nat} {rest : List UInt8}

/-- The first key of an object, after its opening brace. -/
theorem yields_nextKey_first (k : String)
    (here : inp.toList.drop i = Bytes.ofString (JsonValue.quote k) ++ rest) :
    Yields (nextKey true) inp i (some k) (i + (Bytes.ofString (JsonValue.quote k)).length) := by
  obtain ⟨atQuote, read⟩ := yields_quoted k here
  unfold nextKey
  refine (yields_skipWhitespace_of_drop atQuote rfl).bind ?_
  dsimp only
  rw [if_pos rfl]
  exact (yields_pure _).bind (yields_advance.bind read.map)

/-- A later key of an object, after the comma before it. -/
theorem yields_nextKey_next (k : String)
    (here : inp.toList.drop i = 0x2C :: (Bytes.ofString (JsonValue.quote k) ++ rest)) :
    Yields (nextKey false) inp i (some k) (i + 1 + (Bytes.ofString (JsonValue.quote k)).length) := by
  have after := drop_succ_of_drop here
  obtain ⟨atQuote, read⟩ := yields_quoted k after
  unfold nextKey
  refine (yields_skipWhitespace_of_drop here rfl).bind ?_
  dsimp only
  rw [if_neg (by decide)]
  exact yields_advance.bind ((yields_skipWhitespace_of_drop atQuote rfl).bind
    (yields_advance.bind read.map))

/-- An object ends at its closing brace. -/
theorem yields_nextKey_end (here : inp.toList.drop i = 0x7D :: rest) :
    Yields (nextKey false) inp i none i := by
  unfold nextKey
  exact (yields_skipWhitespace_of_drop here rfl).bind (yields_pure _)

theorem yields_objectColon (here : inp.toList.drop i = 0x3A :: rest) :
    Yields objectColon inp i () (i + 1) := by
  unfold objectColon
  exact (yields_skipWhitespace_of_drop here rfl).bind yields_advance

theorem yields_endMap (here : inp.toList.drop i = 0x7D :: rest) : Yields endMap inp i () (i + 1) := by
  unfold endMap
  exact (yields_skipWhitespace_of_drop here rfl).bind yields_advance

/-- Slots all filled complete a record, its fields in order. -/
theorem yields_completeFields (fields : List (String × Shape)) {ds : List (String × Datum)}
    (names : fields.map Prod.fst = ds.map Prod.fst) :
    Yields (completeFields fields (ds.map fun m => some m.2)) inp i ds i := by
  induction fields generalizing ds with
  | nil =>
    obtain rfl : ds = [] := List.map_eq_nil_iff.mp names.symm
    exact yields_pure _
  | cons f fields ih =>
    cases ds with
    | nil => cases names
    | cons m ms =>
    simp only [List.map_cons, List.cons.injEq] at names
    rw [List.map_cons, completeFields]
    dsimp only
    have same : (f.1, m.2) :: ms = m :: ms := by rw [names.1]
    rw [← same]
    refine (yields_pure m.2).bind ?_
    exact (ih names.2).bind (yields_pure _)

/-- The index of a field among fields whose names are all different. -/
theorem findIdx?_name {fieldsDone fs : List (String × Shape)} {f : String × Shape}
    (nodup : ((fieldsDone ++ f :: fs).map Prod.fst).Nodup) :
    (fieldsDone ++ f :: fs).findIdx? (fun x => decide (x.1 = f.1)) = some fieldsDone.length := by
  have before : fieldsDone.findIdx? (fun x => decide (x.1 = f.1)) = none := by
    rw [List.findIdx?_eq_none_iff]
    intro x mem
    simp only [decide_eq_false_iff_not]
    intro same
    simp only [List.map_append, List.map_cons, List.nodup_append, List.nodup_cons] at nodup
    exact nodup.2.2 x.1 (List.mem_map_of_mem mem) f.1 List.mem_cons_self (by simpa using same)
  rw [List.findIdx?_append, before, List.findIdx?_cons]
  simp

/-- One member of an object: its key, a colon and its value fill the key's slot. -/
theorem yields_recordMembers_member {first : Bool} {fuel j k : Nat}
    {fieldsDone fs : List (String × Shape)} {f : String × Shape} {done v : List (String × Datum)}
    {m : String × Datum} {b : UInt8} (nodup : ((fieldsDone ++ f :: fs).map Prod.fst).Nodup)
    (names : fieldsDone.map Prod.fst = done.map Prod.fst) (named : f.1 = m.1)
    (value : FieldValue f.2 m.2) (key : Yields (nextKey first) inp i (some m.1) j)
    (after : inp.toList.drop j = 0x3A :: (Bytes.ofString m.2.toJson.render ++ b :: rest))
    (delimits : Delimits b)
    (next : Yields (recordMembers (fuel + 2) (fieldsDone ++ f :: fs) false
      ((done ++ [m]).map (fun m => some m.2) ++ fs.map fun _ => none)) inp
      (j + 1 + (Bytes.ofString m.2.toJson.render).length) v k) :
    Yields (recordMembers (fuel + 3) (fieldsDone ++ f :: fs) first
      (done.map (fun m => some m.2) ++ (f :: fs).map fun _ => none)) inp i v k := by
  have length : done.length = fieldsDone.length := by
    rw [← List.length_map (f := Prod.fst), ← names, List.length_map]
  rw [recordMembers]
  refine key.bind ?_
  dsimp only
  rw [← named, findIdx?_name nodup]
  dsimp only
  have empty : ((done.map fun m : String × Datum => some m.2) ++
      (f :: fs).map fun _ => none).getD fieldsDone.length none = none := by
    simp [List.getD_eq_getElem?_getD, length]
  have filled : ((done.map fun m : String × Datum => some m.2) ++
      (f :: fs).map fun _ => none).set fieldsDone.length (some m.2) =
        (done ++ [m]).map (fun m : String × Datum => some m.2) ++ fs.map fun _ => none := by
    rw [List.set_append_right _ _ (by simp [length])]
    simp [length]
  have shape : (fieldsDone ++ f :: fs).getD fieldsDone.length ("", .text) = f := by
    simp [List.getD_eq_getElem?_getD]
  rw [empty, if_neg (by decide), shape]
  refine (yields_objectColon after).bind ((yields_read_field fuel value
    (drop_add_length (w := [0x3A]) after) delimits).bind ?_)
  rw [filled]
  exact next

/-- What follows a member's value: the comma before the next member, or the closing brace. -/
theorem exists_delimits (ms : List (String × Datum)) (rest : List UInt8) :
    ∃ b after, ms.flatMap (fun m => 0x2C :: memberBytes m.1 m.2.toJson) ++ 0x7D :: rest =
      b :: after ∧ Delimits b := by
  cases ms with
  | nil => exact ⟨_, _, rfl, .inr rfl⟩
  | cons m ms => exact ⟨_, _, rfl, .inl rfl⟩

/-- The members of an object after its first, each after a comma, read into their slots. -/
theorem yields_recordMembers_rest {fuel : Nat} {fieldsDone fieldsTodo : List (String × Shape)}
    {done todo : List (String × Datum)} (nodup : ((fieldsDone ++ fieldsTodo).map Prod.fst).Nodup)
    (names : fieldsDone.map Prod.fst = done.map Prod.fst)
    (values : List.Forall₂ (fun f m => f.1 = m.1 ∧ FieldValue f.2 m.2) fieldsTodo todo)
    (here : inp.toList.drop i =
      todo.flatMap (fun m => 0x2C :: memberBytes m.1 m.2.toJson) ++ 0x7D :: rest)
    (enough : todo.length + 2 ≤ fuel) :
    Yields (recordMembers fuel (fieldsDone ++ fieldsTodo) false
      ((done.map fun m => some m.2) ++ fieldsTodo.map fun _ => none)) inp i (done ++ todo)
      (i + (todo.flatMap fun m => 0x2C :: memberBytes m.1 m.2.toJson).length) := by
  induction values generalizing fieldsDone done i fuel with
  | nil =>
    obtain ⟨fuel, rfl⟩ : ∃ f, fuel = f + 1 := ⟨fuel - 1, by simp at enough; omega⟩
    simp only [List.flatMap_nil, List.nil_append, List.map_nil, List.append_nil] at here ⊢
    rw [recordMembers]
    exact (yields_nextKey_end here).bind (yields_completeFields fieldsDone names)
  | @cons f m fs ms value values ih =>
    obtain ⟨fuel, rfl⟩ : ∃ f, fuel = f + 3 := ⟨fuel - 3, by simp at enough; omega⟩
    obtain ⟨b, after, delimited, delimits⟩ := exists_delimits ms rest
    have atKey : inp.toList.drop i = 0x2C :: (Bytes.ofString (JsonValue.quote m.1) ++
        0x3A :: (Bytes.ofString m.2.toJson.render ++ b :: after)) := by
      rw [here, List.flatMap_cons, ← delimited]
      simp [memberBytes]
    have key := yields_nextKey_next m.1 atKey
    have atColon : inp.toList.drop (i + 1 + (Bytes.ofString (JsonValue.quote m.1)).length) =
        0x3A :: (Bytes.ofString m.2.toJson.render ++ b :: after) := drop_cons_append atKey
    have atRest : inp.toList.drop (i + 1 + (Bytes.ofString (JsonValue.quote m.1)).length + 1 +
        (Bytes.ofString m.2.toJson.render).length) =
          ms.flatMap (fun m => 0x2C :: memberBytes m.1 m.2.toJson) ++ 0x7D :: rest := by
      rw [delimited]
      exact drop_cons_append atColon
    have reordered : fieldsDone ++ f :: fs = (fieldsDone ++ [f]) ++ fs := by simp
    have read : Yields (recordMembers (fuel + 2) ((fieldsDone ++ [f]) ++ fs) false
        (((done ++ [m]).map fun m => some m.2) ++ fs.map fun _ => none)) inp _ ((done ++ [m]) ++ ms)
          _ :=
      ih (by rwa [← reordered]) (by simp [names, value.1]) atRest
        (show ms.length + 2 ≤ fuel + 2 by simp at enough; omega)
    rw [← reordered] at read
    have whole := yields_recordMembers_member nodup names value.1 value.2 key atColon delimits read
    have offset : i + ((m :: ms).flatMap fun m => 0x2C :: memberBytes m.1 m.2.toJson).length =
        i + 1 + (Bytes.ofString (JsonValue.quote m.1)).length + 1 +
          (Bytes.ofString m.2.toJson.render).length +
            (ms.flatMap fun m => 0x2C :: memberBytes m.1 m.2.toJson).length := by
      simp [memberBytes]
      omega
    rw [offset, show done ++ m :: ms = done ++ [m] ++ ms by simp]
    exact whole

/-- The bytes of a written record: its members between braces, separated by commas. -/
theorem ofString_render_record (m : String × Datum) (ms : List (String × Datum)) :
    Bytes.ofString (Datum.record (m :: ms)).toJson.render =
      0x7B :: (memberBytes m.1 m.2.toJson ++
        (ms.flatMap fun m => 0x2C :: memberBytes m.1 m.2.toJson) ++ [0x7D]) := by
  simp only [Datum.toJson, JsonValue.render, fieldsToJson_eq_map, List.map_cons,
    Bytes.ofString_append, ofString_renderMembers, List.flatMap_map, Bytes.ofString_openBrace,
    Bytes.ofString_closeBrace, List.cons_append, List.nil_append, List.append_assoc]

/-- A record written as an object, its fields in the order of its shape, reads back as itself. -/
theorem yields_read_record (name : String) {fuel : Nat} {fields : List (String × Shape)}
    {ds : List (String × Datum)} (nodup : (fields.map Prod.fst).Nodup)
    (values : List.Forall₂ (fun f m => f.1 = m.1 ∧ FieldValue f.2 m.2) fields ds)
    (nonempty : ds ≠ []) (here : inp.toList.drop i = Bytes.ofString (Datum.record ds).toJson.render ++ rest)
    (enough : ds.length + 3 ≤ fuel) :
    Yields (read fuel (.record name fields)) inp i (.record ds)
      (i + (Bytes.ofString (Datum.record ds).toJson.render).length) := by
  cases values with
  | nil => exact absurd rfl nonempty
  | @cons f m fs ms value values =>
  obtain ⟨fuel, rfl⟩ : ∃ F, fuel = F + 4 := ⟨fuel - 4, by simp at enough; omega⟩
  rw [ofString_render_record] at here ⊢
  obtain ⟨b, after, delimited, delimits⟩ := exists_delimits ms rest
  have afterBrace : inp.toList.drop (i + 1) = memberBytes m.1 m.2.toJson ++
      (ms.flatMap (fun m => 0x2C :: memberBytes m.1 m.2.toJson) ++ 0x7D :: rest) :=
    drop_add_length (w := [0x7B]) (by rw [here]; simp)
  have atKey : inp.toList.drop (i + 1) = Bytes.ofString (JsonValue.quote m.1) ++
      0x3A :: (Bytes.ofString m.2.toJson.render ++ b :: after) := by
    rw [afterBrace, delimited]
    simp [memberBytes]
  have key := yields_nextKey_first m.1 atKey
  have atColon := drop_add_length atKey
  have atRest : inp.toList.drop (i + 1 + (Bytes.ofString (JsonValue.quote m.1)).length + 1 +
      (Bytes.ofString m.2.toJson.render).length) =
        ms.flatMap (fun m => 0x2C :: memberBytes m.1 m.2.toJson) ++ 0x7D :: rest := by
    rw [delimited]
    exact drop_cons_append atColon
  have others : Yields (recordMembers (fuel + 2) ([f] ++ fs) false
      (([m].map fun m => some m.2) ++ fs.map fun _ => none)) inp _ ([m] ++ ms) _ :=
    yields_recordMembers_rest nodup (by simp [value.1]) values atRest
      (show ms.length + 2 ≤ fuel + 2 by simp at enough; omega)
  have members : Yields (recordMembers (fuel + 3) ([] ++ f :: fs) true
      (([] : List (String × Datum)).map (fun m => some m.2) ++ (f :: fs).map fun _ => none))
      inp (i + 1) ([m] ++ ms) _ :=
    yields_recordMembers_member nodup rfl value.1 value.2 key atColon delimits others
  have atEnd := drop_add_length atRest
  rw [read]
  refine Yields.placed ((yields_skipWhitespace_of_drop here rfl).bind ?_)
  refine yields_advance.bind (members.attempt.bind ((yields_endMap atEnd).attempt.bind ?_))
  have offset : i + (0x7B :: (memberBytes m.1 m.2.toJson ++
      (ms.flatMap fun m => 0x2C :: memberBytes m.1 m.2.toJson) ++ [0x7D])).length =
        i + 1 + (Bytes.ofString (JsonValue.quote m.1)).length + 1 +
          (Bytes.ofString m.2.toJson.render).length +
            (ms.flatMap fun m => 0x2C :: memberBytes m.1 m.2.toJson).length + 1 := by
    simp [memberBytes]
    omega
  rw [offset]
  exact yields_finish.map

theorem yields_endOfInput (done : inp.toList.drop i = []) : Yields endOfInput inp i () i := by
  unfold endOfInput
  exact (yields_skipWhitespace_of_end done).bind (yields_pure ())

/-- A reading of a whole input that stops at its end succeeds with its value. -/
theorem runDocument_eq_ok {r : Reader α} {bytes : List UInt8} {v : α} {j : Nat}
    (read : Yields r bytes.toArray 0 v j) (done : bytes.drop j = []) : runDocument r bytes = .ok v := by
  have whole : Yields (do let v ← r; endOfInput; pure v : Reader α) bytes.toArray 0 v j :=
    read.bind ((yields_endOfInput (by simpa using done)).bind (yields_pure v))
  simp only [runDocument]
  rw [show ((do let v ← r; endOfInput; pure v : Reader α).run bytes.toArray).run.run 0 =
    (.ok v, j) from whole]

end Reader

/-- A record written as JSON, its fields in the order of its shape, reads back as itself. -/
theorem Shape.parse_record (name : String) {fields : List (String × Shape)}
    {ds : List (String × Datum)} (nodup : (fields.map Prod.fst).Nodup)
    (values : List.Forall₂ (fun f m => f.1 = m.1 ∧ FieldValue f.2 m.2) fields ds)
    (nonempty : ds ≠ []) :
    (Shape.record name fields).parse (Bytes.ofString (Datum.record ds).toJson.render) =
      .ok (.record ds) := by
  obtain ⟨m, ms, rfl⟩ := List.exists_cons_of_ne_nil nonempty
  have long : (m :: ms).length ≤ (Bytes.ofString (Datum.record (m :: ms)).toJson.render).length := by
    rw [Reader.ofString_render_record]
    have each : ms.length ≤ (ms.flatMap fun m => 0x2C :: memberBytes m.1 m.2.toJson).length := by
      clear values nonempty
      induction ms with
      | nil => simp
      | cons m ms ih =>
        simp only [List.flatMap_cons, List.length_cons, List.length_append]
        omega
    simp only [List.length_cons, List.length_append]
    omega
  have read : Reader.Yields (Reader.read
      (2 * (Bytes.ofString (Datum.record (m :: ms)).toJson.render).toArray.size + 16)
      (.record name fields)) (Bytes.ofString (Datum.record (m :: ms)).toJson.render).toArray 0
      (.record (m :: ms)) (0 + (Bytes.ofString (Datum.record (m :: ms)).toJson.render).length) :=
    Reader.yields_read_record name nodup values nonempty (show _ = _ ++ [] by simp)
      (by simp only [List.size_toArray, List.length_cons] at long ⊢; omega)
  unfold Shape.parse
  exact Reader.runDocument_eq_ok (Reader.yields_input.bind read) (by simp)

end Json

end Chaincode
