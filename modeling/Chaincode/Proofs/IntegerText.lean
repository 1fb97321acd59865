import Chaincode.Codec.Plain
import Chaincode.Proofs.Mapping
import Chaincode.Proofs.Utf8

/-!
# Integer texts

The integer codecs write a value as its decimal text and read back a text that is valid UTF-8,
trimmed of blanks at both ends, as an integer of their range. This module says which byte strings
they read and as what: exactly the encodings of a decimal text between blanks, an optional `+`
(or `-`, for the signed types) followed by one or more ASCII digits, whose value lies in the
type's range. Everything else fails with a decoding error naming the type.

The reader accumulates digits one at a time and checks the range after every digit. That early
check refuses nothing that the final value would allow: the partial values move away from zero
towards the final one, so they stay in any range around zero that holds the final value.
-/

namespace Chaincode

/-! ## Decimal texts -/

namespace Number

/-- A decimal integer text and the value it denotes: one or more ASCII digits, bare or after a
`+`, or after a `-` where the type has negative values (`signed`). -/
inductive DecimalText (signed : Bool) : List Char → Int → Prop
  | bare {ds : List Char} : ds ≠ [] → (∀ c ∈ ds, c.isDigit = true) →
      DecimalText signed ds (Nat.ofDigitChars 10 ds 0)
  | plus {ds : List Char} : ds ≠ [] → (∀ c ∈ ds, c.isDigit = true) →
      DecimalText signed ('+' :: ds) (Nat.ofDigitChars 10 ds 0)
  | minus {ds : List Char} : signed = true → ds ≠ [] → (∀ c ∈ ds, c.isDigit = true) →
      DecimalText signed ('-' :: ds) (-(Nat.ofDigitChars 10 ds 0 : Int))

/-- A magnitude with the sign `negative` gives it. -/
def signed (negative : Bool) (n : Nat) : Int := if negative then -(n : Int) else n

theorem digitValue?_eq_some_iff {c : Char} {d : Nat} :
    digitValue? c = some d ↔ c.isDigit = true ∧ d = c.toNat - 48 := by
  have range : ('0' ≤ c ∧ c ≤ '9') ↔ c.isDigit = true := by
    simp [Char.isDigit, Char.le_def, UInt32.le_iff_toNat_le]
  by_cases digit : c.isDigit = true
  · simp [digitValue?, range.mpr digit, digit, eq_comm]
  · simp [digitValue?, mt range.mp digit, digit]

theorem le_ofDigitChars (ds : List Char) (a : Nat) : a ≤ Nat.ofDigitChars 10 ds a := by
  rw [Nat.ofDigitChars_eq_ofDigitChars_zero]
  have positive : 1 ≤ 10 ^ ds.length := Nat.one_le_pow _ _ (by omega)
  calc a = 1 * a := (Nat.one_mul a).symm
    _ ≤ 10 ^ ds.length * a := Nat.mul_le_mul_right a positive
    _ ≤ _ := Nat.le_add_right _ _

/-- A magnitude below one whose signed value lies in a range around zero lies in it too. -/
theorem signed_mem_of_le {lo hi : Int} {negative : Bool} {a b : Nat} (below : a ≤ b)
    (nonpos : lo ≤ 0) (nonneg : 0 ≤ hi)
    (inRange : lo ≤ signed negative b ∧ signed negative b ≤ hi) :
    lo ≤ signed negative a ∧ signed negative a ≤ hi := by
  cases negative <;> simp only [signed, Bool.false_eq_true, if_true, if_false] at inRange ⊢ <;>
    omega

/-- One digit more: the partial value grows by the digit away from zero, and the reader goes on
from it only while it is in range. -/
theorem accumulate_cons_eq_ok_iff {lo hi : Int} {negative : Bool} {a : Nat} {c : Char}
    {rest : List Char} {v : Int} (digit : c.isDigit = true) :
    accumulate lo hi negative (signed negative a) (c :: rest) = .ok v ↔
      (lo ≤ signed negative (10 * a + (c.toNat - 48)) ∧
        signed negative (10 * a + (c.toNat - 48)) ≤ hi) ∧
      accumulate lo hi negative (signed negative (10 * a + (c.toNat - 48))) rest = .ok v := by
  have value : digitValue? c = some (c.toNat - 48) := digitValue?_eq_some_iff.mpr ⟨digit, rfl⟩
  have next : (if negative then signed negative a * 10 - ↑(c.toNat - 48)
      else signed negative a * 10 + ↑(c.toNat - 48)) =
      signed negative (10 * a + (c.toNat - 48)) := by
    cases negative <;> simp [signed] <;> omega
  simp only [accumulate, value, next]
  by_cases below : signed negative (10 * a + (c.toNat - 48)) < lo
  · simp only [below, if_true, reduceCtorEq, false_iff, not_and]
    intro low
    omega
  · by_cases above : hi < signed negative (10 * a + (c.toNat - 48))
    · simp only [below, above, if_true, if_false, reduceCtorEq, false_iff, not_and]
      intro _ high
      omega
    · simp only [below, above, if_false, iff_and_self]
      intro
      omega

/-- Digits accumulated onto a partial value in range give the value of the digits after it,
provided every character is a digit and that value is in range. -/
theorem accumulate_eq_ok_iff {lo hi : Int} (nonpos : lo ≤ 0) (nonneg : 0 ≤ hi) {negative : Bool}
    {v : Int} (ds : List Char) {a : Nat}
    (inRange : lo ≤ signed negative a ∧ signed negative a ≤ hi) :
    accumulate lo hi negative (signed negative a) ds = .ok v ↔
      (∀ c ∈ ds, c.isDigit = true) ∧ v = signed negative (Nat.ofDigitChars 10 ds a) ∧
        lo ≤ v ∧ v ≤ hi := by
  induction ds generalizing a with
  | nil =>
    simp only [accumulate, Except.ok.injEq, List.not_mem_nil, false_implies, implies_true,
      Nat.ofDigitChars_nil, true_and]
    constructor
    · rintro rfl
      exact ⟨rfl, inRange⟩
    · rintro ⟨rfl, -⟩
      rfl
  | cons c rest ih =>
    by_cases digit : c.isDigit = true
    · have final : Nat.ofDigitChars 10 (c :: rest) a =
          Nat.ofDigitChars 10 rest (10 * a + (c.toNat - 48)) := Nat.ofDigitChars_cons
      simp only [accumulate_cons_eq_ok_iff digit, List.mem_cons, forall_eq_or_imp, digit,
        true_and, final]
      by_cases inRange' : lo ≤ signed negative (10 * a + (c.toNat - 48)) ∧
          signed negative (10 * a + (c.toNat - 48)) ≤ hi
      · rw [ih inRange']
        exact and_iff_right inRange'
      · -- a partial value out of range: so is the final value, which lies beyond it
        refine iff_of_false (fun accepted => inRange' accepted.1) ?_
        rintro ⟨-, rfl, bounds⟩
        exact inRange' (signed_mem_of_le (le_ofDigitChars rest _) nonpos nonneg bounds)
    · have value : digitValue? c = none := by
        cases found : digitValue? c with
        | none => rfl
        | some d => exact absurd (digitValue?_eq_some_iff.mp found).1 digit
      simp only [accumulate, value, reduceCtorEq, false_iff, not_and, List.mem_cons,
        forall_eq_or_imp]
      exact fun digits => absurd digits.1 digit

theorem parseIntChars_plus (lo hi : Int) {rest : List Char} (nonempty : rest ≠ []) :
    parseIntChars lo hi ('+' :: rest) = accumulate lo hi false 0 rest := by
  rw [parseIntChars]
  exact nonempty

theorem parseIntChars_minus (lo hi : Int) {rest : List Char} (nonempty : rest ≠ []) :
    parseIntChars lo hi ('-' :: rest) =
      if lo < 0 then accumulate lo hi true 0 rest else .error .invalidDigit := by
  rw [parseIntChars]
  exact nonempty

theorem parseIntChars_other (lo hi : Int) {c : Char} (rest : List Char) (notPlus : c ≠ '+')
    (notMinus : c ≠ '-') :
    parseIntChars lo hi (c :: rest) = accumulate lo hi false 0 (c :: rest) := by
  rw [parseIntChars] <;> simp_all

theorem signed_zero (negative : Bool) : signed negative 0 = 0 := by
  cases negative <;> rfl

theorem ne_sign_of_isDigit {c : Char} (digit : c.isDigit = true) : c ≠ '+' ∧ c ≠ '-' := by
  constructor <;> rintro rfl <;> simp at digit

/-- The reader accepts exactly the decimal texts whose value lies in the range; a `-` is a sign
only when the range holds negative numbers. -/
theorem parseIntChars_eq_ok_iff {lo hi : Int} (nonpos : lo ≤ 0) (nonneg : 0 ≤ hi)
    {cs : List Char} {v : Int} :
    parseIntChars lo hi cs = .ok v ↔
      DecimalText (decide (lo < 0)) cs v ∧ lo ≤ v ∧ v ≤ hi := by
  have start : ∀ negative, lo ≤ signed negative 0 ∧ signed negative 0 ≤ hi := by
    intro negative
    rw [signed_zero]
    exact ⟨nonpos, nonneg⟩
  have digitsFrom : ∀ negative (ds : List Char), accumulate lo hi negative 0 ds = .ok v ↔
      (∀ c ∈ ds, c.isDigit = true) ∧ v = signed negative (Nat.ofDigitChars 10 ds 0) ∧
        lo ≤ v ∧ v ≤ hi := fun negative ds => by
    rw [← accumulate_eq_ok_iff nonpos nonneg ds (start negative), signed_zero]
  constructor
  · intro parsed
    rcases cs with _ | ⟨c, rest⟩
    · cases parsed
    by_cases plus : c = '+'
    · subst plus
      by_cases empty : rest = []
      · subst empty
        cases parsed
      rw [parseIntChars_plus lo hi empty, digitsFrom] at parsed
      obtain ⟨digits, rfl, bounds⟩ := parsed
      exact ⟨.plus empty digits, bounds⟩
    by_cases minus : c = '-'
    · subst minus
      by_cases empty : rest = []
      · subst empty
        cases parsed
      rw [parseIntChars_minus lo hi empty] at parsed
      by_cases negatives : lo < 0
      · rw [if_pos negatives, digitsFrom] at parsed
        obtain ⟨digits, rfl, bounds⟩ := parsed
        exact ⟨.minus (decide_eq_true negatives) empty digits, bounds⟩
      · rw [if_neg negatives] at parsed
        cases parsed
    rw [parseIntChars_other lo hi rest plus minus, digitsFrom] at parsed
    obtain ⟨digits, rfl, bounds⟩ := parsed
    exact ⟨.bare (List.cons_ne_nil c rest) digits, bounds⟩
  · rintro ⟨text, bounds⟩
    cases text with
    | bare nonempty digits =>
      obtain ⟨c, rest, rfl⟩ := List.exists_cons_of_ne_nil nonempty
      obtain ⟨plus, minus⟩ := ne_sign_of_isDigit (digits c List.mem_cons_self)
      rw [parseIntChars_other lo hi rest plus minus, digitsFrom]
      exact ⟨digits, rfl, bounds⟩
    | plus nonempty digits =>
      rw [parseIntChars_plus lo hi nonempty, digitsFrom]
      exact ⟨digits, rfl, bounds⟩
    | minus allowed nonempty digits =>
      rw [parseIntChars_minus lo hi nonempty, if_pos (of_decide_eq_true allowed), digitsFrom]
      exact ⟨digits, rfl, bounds⟩

end Number

/-! ## Blanks around a text -/

namespace Text

theorem isBlank_of_mem_takeWhile {c : Char} {cs : List Char} (mem : c ∈ cs.takeWhile isBlank) :
    isBlank c = true :=
  List.all_eq_true.mp List.all_takeWhile c mem

/-- Every text is its trimmed form between blanks. -/
theorem exists_blanks_around (cs : List Char) : ∃ lead trail,
    cs = lead ++ trimBlankChars cs ++ trail ∧ (∀ c ∈ lead ++ trail, isBlank c = true) := by
  -- the leading blanks are what the first `dropWhile` drops, the trailing ones what the second
  -- drops from the reversed rest
  let rest := cs.dropWhile isBlank
  have split : rest = (rest.reverse.dropWhile isBlank).reverse ++
      (rest.reverse.takeWhile isBlank).reverse := by
    rw [← List.reverse_append, List.takeWhile_append_dropWhile, List.reverse_reverse]
  refine ⟨cs.takeWhile isBlank, (rest.reverse.takeWhile isBlank).reverse, ?_, ?_⟩
  · calc cs = cs.takeWhile isBlank ++ rest := List.takeWhile_append_dropWhile.symm
      _ = cs.takeWhile isBlank ++ ((rest.reverse.dropWhile isBlank).reverse ++
          (rest.reverse.takeWhile isBlank).reverse) := by rw [← split]
      _ = _ := by rw [List.append_assoc]; rfl
  · intro c mem
    rcases List.mem_append.mp mem with lead | trail
    · exact isBlank_of_mem_takeWhile lead
    · exact isBlank_of_mem_takeWhile (List.mem_reverse.mp trail)

/-- A text that starts with no blank loses nothing to dropping leading blanks. -/
theorem dropWhile_isBlank_of_head {xs : List Char} (head : ∀ c ∈ xs.head?, isBlank c = false) :
    xs.dropWhile isBlank = xs := by
  cases xs with
  | nil => rfl
  | cons x xs =>
    have notBlank : ¬ isBlank x = true := by simp [head x rfl]
    exact List.dropWhile_cons_of_neg notBlank

/-- Trimming takes off the blanks around a text that neither starts nor ends with one. -/
theorem trimBlankChars_around {lead body trail : List Char}
    (blanks : ∀ c ∈ lead ++ trail, isBlank c = true) (nonempty : body ≠ [])
    (first : ∀ c ∈ body.head?, isBlank c = false)
    (last : ∀ c ∈ body.getLast?, isBlank c = false) :
    trimBlankChars (lead ++ body ++ trail) = body := by
  have leadBlank : ∀ c ∈ lead, isBlank c = true := fun c mem =>
    blanks c (List.mem_append_left trail mem)
  have trailBlank : ∀ c ∈ trail.reverse, isBlank c = true := fun c mem =>
    blanks c (List.mem_append_right lead (List.mem_reverse.mp mem))
  have front : ∀ c ∈ (body ++ trail).head?, isBlank c = false := by
    obtain ⟨x, xs, rfl⟩ := List.exists_cons_of_ne_nil nonempty
    exact first
  have back : ∀ c ∈ body.reverse.head?, isBlank c = false := by
    rwa [List.head?_reverse]
  rw [trimBlankChars, List.append_assoc, List.dropWhile_append_of_pos leadBlank,
    dropWhile_isBlank_of_head front, List.reverse_append, List.dropWhile_append_of_pos trailBlank,
    dropWhile_isBlank_of_head back, List.reverse_reverse]

end Text

namespace Number

theorem isBlank_of_isDigit {c : Char} (digit : c.isDigit = true) : Text.isBlank c = false := by
  simp only [Char.isDigit, Bool.and_eq_true, decide_eq_true_eq, UInt32.le_iff_toNat_le] at digit
  have range : 48 ≤ c.toNat ∧ c.toNat ≤ 57 := digit
  simp only [Text.isBlank, Bool.or_eq_false_iff, Bool.and_eq_false_iff, decide_eq_false_iff_not]
  omega

/-- A decimal text is not empty and neither starts nor ends with a blank. -/
theorem DecimalText.unblanked {signed : Bool} {cs : List Char} {v : Int}
    (text : DecimalText signed cs v) :
    cs ≠ [] ∧ (∀ c ∈ cs.head?, Text.isBlank c = false) ∧
      ∀ c ∈ cs.getLast?, Text.isBlank c = false := by
  -- the last character is a digit in every case; the first is a digit or a sign
  have lastDigit : ∀ {ds : List Char}, ds ≠ [] → (∀ c ∈ ds, c.isDigit = true) →
      ∀ c ∈ ds.getLast?, Text.isBlank c = false := fun _ digits c mem =>
    isBlank_of_isDigit (digits c (List.mem_of_getLast? mem))
  cases text with
  | bare nonempty digits =>
    refine ⟨nonempty, fun c mem => ?_, lastDigit nonempty digits⟩
    exact isBlank_of_isDigit (digits c (List.mem_of_mem_head? mem))
  | plus nonempty digits | minus _ nonempty digits =>
    obtain ⟨x, xs, rfl⟩ := List.exists_cons_of_ne_nil nonempty
    refine ⟨List.cons_ne_nil _ _, fun c mem => ?_, ?_⟩
    · cases Option.mem_def.mp mem
      decide
    · rw [List.getLast?_cons_cons]
      exact lastDigit nonempty digits

/-- The value a decimal text denotes, read off its sign and digits. -/
def textValue : List Char → Int
  | '-' :: ds => -(Nat.ofDigitChars 10 ds 0 : Int)
  | '+' :: ds => Nat.ofDigitChars 10 ds 0
  | ds => Nat.ofDigitChars 10 ds 0

/-- A decimal text denotes one value. -/
theorem DecimalText.eq_textValue {signed : Bool} {cs : List Char} {v : Int}
    (text : DecimalText signed cs v) : v = textValue cs := by
  cases text with
  | bare nonempty digits =>
    obtain ⟨c, rest, rfl⟩ := List.exists_cons_of_ne_nil nonempty
    obtain ⟨plus, minus⟩ := ne_sign_of_isDigit (digits c List.mem_cons_self)
    rw [textValue] <;> simp_all
  | plus => rfl
  | minus => rfl

/-- The decimal text of a natural number, as written, is read as that number. -/
theorem decimalText_repr (signed : Bool) (n : Nat) :
    DecimalText signed (Nat.repr n).toList n := by
  have value : ((Nat.ofDigitChars 10 (Nat.toDigits 10 n) 0 : Nat) : Int) = n := by
    rw [Nat.ofDigitChars_ten_toDigits]
  rw [Nat.toList_repr, ← value]
  exact .bare Nat.toDigits_ne_nil fun c mem =>
    Nat.isDigit_of_mem_toDigits (by omega) (by omega) mem

/-- The decimal text of an integer, as written, is read as that integer by a signed reader. -/
theorem decimalText_toString (v : Int) : DecimalText true (toString v).toList v := by
  cases v with
  | ofNat n => exact decimalText_repr true n
  | negSucc n =>
    have value : -((Nat.ofDigitChars 10 (Nat.toDigits 10 (n + 1)) 0 : Nat) : Int) =
        Int.negSucc n := by
      rw [Nat.ofDigitChars_ten_toDigits]
      rfl
    show DecimalText true ("-" ++ Nat.repr (n + 1)).toList (Int.negSucc n)
    rw [String.toList_append, Nat.toList_repr, ← value]
    exact .minus rfl Nat.toDigits_ne_nil fun c mem =>
      Nat.isDigit_of_mem_toDigits (by omega) (by omega) mem

end Number

/-! ## Integer codecs -/

/-- The UTF-8 encoding of a decimal text of `v` with blanks around it. -/
def DecimalBytes (signed : Bool) (b : Bytes) (v : Int) : Prop :=
  ∃ lead body trail, b = Bytes.ofString (String.ofList (lead ++ body ++ trail)) ∧
    (∀ c ∈ lead ++ trail, Text.isBlank c = true) ∧ Number.DecimalText signed body v

/-- Encoded decimal texts between blanks are the encodings of texts whose trimmed form is
decimal. -/
theorem decimalBytes_iff {signed : Bool} {b : Bytes} {v : Int} :
    DecimalBytes signed b v ↔
      ∃ s, b = Bytes.ofString s ∧
        Number.DecimalText signed (Text.trimBlankChars s.toList) v := by
  constructor
  · rintro ⟨lead, body, trail, rfl, blanks, text⟩
    obtain ⟨nonempty, first, last⟩ := text.unblanked
    refine ⟨_, rfl, ?_⟩
    rwa [String.toList_ofList, Text.trimBlankChars_around blanks nonempty first last]
  · rintro ⟨s, rfl, text⟩
    obtain ⟨lead, trail, around, blanks⟩ := Text.exists_blanks_around s.toList
    refine ⟨lead, _, trail, ?_, blanks, text⟩
    rw [← around, String.ofList_toList]

theorem readText_eq_ok_iff {name : String} {b : Bytes} {s : String} :
    readText name b = .ok s ↔ b = Bytes.ofString s := by
  rw [← Text.Utf8.decode_eq_ok_iff, readText]
  cases Text.Utf8.decode b <;> simp

section Textual

variable {α : Type} {name : String} {render : α → String} {parse : String → Except String α}
  {b : Bytes}

/-- A textual codec reads the encodings of texts whose trimmed form parses. -/
theorem textualCodec_decode_eq_ok_iff {v : α} :
    (textualCodec name render parse).decode b = .ok v ↔
      ∃ s, b = Bytes.ofString s ∧ parse (Text.trimBlank s) = .ok v := by
  simp only [textualCodec]
  cases read : readText name b with
  | error e =>
    simp only [Except.error_bind, reduceCtorEq, false_iff, not_exists, not_and]
    intro s same
    have text : readText name b = .ok s := readText_eq_ok_iff.mpr same
    rw [read] at text
    cases text
  | ok s =>
    have text := readText_eq_ok_iff.mp read
    have unique : ∀ t, b = Bytes.ofString t ↔ t = s := fun t =>
      ⟨fun same => Text.Utf8.ofString_injective (same.symm.trans text),
        fun same => same ▸ text⟩
    simp only [Except.ok_bind, unique, exists_eq_left]
    cases parse (Text.trimBlank s) <;> simp

/-- A textual codec fails only with a decoding error that names its type. -/
theorem textualCodec_decode_error {e : CodecError}
    (failed : (textualCodec name render parse).decode b = .error e) :
    ∃ reason, e = .decode name reason := by
  simp only [textualCodec, readText] at failed
  cases read : Text.Utf8.decode b with
  | error err =>
    rw [read] at failed
    cases failed
    exact ⟨_, rfl⟩
  | ok s =>
    rw [read] at failed
    simp only [Except.ok_bind] at failed
    cases parsed : parse (Text.trimBlank s) with
    | ok v => simp [parsed] at failed
    | error reason =>
      simp only [parsed, Except.error.injEq] at failed
      exact ⟨reason, failed.symm⟩

end Textual

theorem parseRange_map_eq_ok_iff {β : Type} {lo hi : Int} {s : String} {cast : Int → β}
    {n : β} : (parseRange lo hi s).map cast = .ok n ↔
      ∃ v, Number.parseIntChars lo hi s.toList = .ok v ∧ cast v = n := by
  simp only [parseRange, Number.parseInt]
  cases Number.parseIntChars lo hi s.toList <;> simp [Except.map]

/-- What an integer codec of the range `[lo, hi]` promises: it reads a value exactly from the
encodings of its decimal texts between blanks, so it reads something exactly when the bytes are
such a text of a value in the range; every other failure is a decoding error naming its type; and
it reads back what it writes. -/
structure Codec.ReadsDecimal {α : Type} (c : Codec α) (signed : Bool) (lo hi : Int)
    (value : α → Int) : Prop where
  decode_eq_ok_iff : ∀ b n, c.decode b = .ok n ↔ DecimalBytes signed b (value n)
  accepts_iff : ∀ b, (∃ n, c.decode b = .ok n) ↔
    ∃ v, DecimalBytes signed b v ∧ lo ≤ v ∧ v ≤ hi
  refuses : ∀ b e, c.decode b = .error e → ∃ reason, e = .decode c.typeName reason
  round_trip : ∀ n, c.decode (c.encode n) = .ok n

/-- A textual codec that reads decimal texts of a range around zero into a type that holds
exactly that range reads decimal texts exactly. -/
theorem textualCodec_readsDecimal {α : Type} {name : String} {lo hi : Int} {render : α → String}
    {cast : Int → α} {value : α → Int} (nonpos : lo ≤ 0) (nonneg : 0 ≤ hi)
    (bounded : ∀ n, lo ≤ value n ∧ value n ≤ hi)
    (cast_eq_iff : ∀ v n, lo ≤ v → v ≤ hi → (cast v = n ↔ value n = v))
    (written : ∀ n, Number.DecimalText (decide (lo < 0)) (render n).toList (value n)) :
    (textualCodec name render fun s => (parseRange lo hi s).map cast).ReadsDecimal
      (decide (lo < 0)) lo hi value := by
  have reads : ∀ b n, (textualCodec name render fun s => (parseRange lo hi s).map cast).decode b =
      .ok n ↔ DecimalBytes (decide (lo < 0)) b (value n) := by
    intro b n
    rw [textualCodec_decode_eq_ok_iff, decimalBytes_iff]
    refine exists_congr fun s => and_congr_right fun _ => ?_
    rw [parseRange_map_eq_ok_iff, Text.trimBlank, String.toList_ofList]
    constructor
    · rintro ⟨v, parsed, rfl⟩
      obtain ⟨text, low, high⟩ := (Number.parseIntChars_eq_ok_iff nonpos nonneg).mp parsed
      rwa [(cast_eq_iff v _ low high).mp rfl]
    · intro text
      obtain ⟨low, high⟩ := bounded n
      exact ⟨value n, (Number.parseIntChars_eq_ok_iff nonpos nonneg).mpr ⟨text, low, high⟩,
        (cast_eq_iff _ n low high).mpr rfl⟩
  refine ⟨reads, fun b => ?_, fun b e failed => ?_, fun n => ?_⟩
  · constructor
    · rintro ⟨n, read⟩
      exact ⟨value n, (reads b n).mp read, bounded n⟩
    · rintro ⟨v, bytes, low, high⟩
      have cast_value : value (cast v) = v := (cast_eq_iff v (cast v) low high).mp rfl
      refine ⟨cast v, (reads b (cast v)).mpr ?_⟩
      rwa [cast_value]
  · exact @textualCodec_decode_error α name render (fun s => (parseRange lo hi s).map cast) b e
      failed
  · refine (reads _ n).mpr ⟨[], (render n).toList, [], ?_, by simp, written n⟩
    simp [textualCodec, String.ofList_toList]

/-! ## The four widths -/

theorem int32_cast_eq_iff (v : Int) (n : Int32) (low : -2147483648 ≤ v)
    (high : v ≤ 2147483647) :
    Int.toInt32 v = n ↔ n.toInt = v := by
  constructor
  · rintro rfl
    exact Int32.toInt_ofInt_of_le (by omega) (by omega)
  · rintro rfl
    exact Int32.toInt_inj.mp (Int32.toInt_ofInt_of_le (by omega) (by omega))

theorem int64_cast_eq_iff (v : Int) (n : Int64) (low : -9223372036854775808 ≤ v)
    (high : v ≤ 9223372036854775807) : Int.toInt64 v = n ↔ n.toInt = v := by
  constructor
  · rintro rfl
    exact Int64.toInt_ofInt_of_le (by omega) (by omega)
  · rintro rfl
    exact Int64.toInt_inj.mp (Int64.toInt_ofInt_of_le (by omega) (by omega))

theorem uint32_cast_eq_iff (v : Int) (n : UInt32) (low : 0 ≤ v) (high : v ≤ 4294967295) :
    v.toNat.toUInt32 = n ↔ (n.toNat : Int) = v := by
  constructor
  · rintro rfl
    rw [Nat.toUInt32, UInt32.toNat_ofNat_of_lt' (show v.toNat < 4294967296 by omega),
      Int.toNat_of_nonneg low]
  · rintro rfl
    rw [Int.toNat_natCast, Nat.toUInt32, UInt32.ofNat_toNat]

theorem uint64_cast_eq_iff (v : Int) (n : UInt64) (low : 0 ≤ v)
    (high : v ≤ 18446744073709551615) : v.toNat.toUInt64 = n ↔ (n.toNat : Int) = v := by
  constructor
  · rintro rfl
    rw [Nat.toUInt64,
      UInt64.toNat_ofNat_of_lt' (show v.toNat < 18446744073709551616 by omega),
      Int.toNat_of_nonneg low]
  · rintro rfl
    rw [Int.toNat_natCast, Nat.toUInt64, UInt64.ofNat_toNat]

/-- Encoded decimal texts between blanks denote one value. -/
theorem DecimalBytes.value_unique {signed signed' : Bool} {b : Bytes} {v w : Int}
    (first : DecimalBytes signed b v) (second : DecimalBytes signed' b w) : v = w := by
  obtain ⟨s, rfl, text⟩ := decimalBytes_iff.mp first
  obtain ⟨s', same, text'⟩ := decimalBytes_iff.mp second
  rw [Text.Utf8.ofString_injective same] at text
  rw [text.eq_textValue, text'.eq_textValue]

/-- A decimal text of a value outside the range is read as nothing. -/
theorem Codec.ReadsDecimal.decode_ne_ok_of_outside {α : Type} {c : Codec α} {signed : Bool}
    {lo hi : Int} {value : α → Int} (reads : c.ReadsDecimal signed lo hi value) {b : Bytes}
    {v : Int} (bytes : DecimalBytes signed b v) (outside : v < lo ∨ hi < v) (n : α) :
    c.decode b ≠ .ok n := by
  intro read
  obtain ⟨w, bytes', low, high⟩ := (reads.accepts_iff b).mp ⟨n, read⟩
  have same := bytes.value_unique bytes'
  omega

theorem int32_readsDecimal :
    Codec.int32.ReadsDecimal true Int32.minValue.toInt Int32.maxValue.toInt Int32.toInt :=
  textualCodec_readsDecimal (by decide) (by decide)
    (fun n => ⟨Int32.le_toInt n, Int32.toInt_le n⟩)
    int32_cast_eq_iff fun n => Number.decimalText_toString n.toInt

theorem int64_readsDecimal :
    Codec.int64.ReadsDecimal true Int64.minValue.toInt Int64.maxValue.toInt Int64.toInt :=
  textualCodec_readsDecimal (by decide) (by decide)
    (fun n => ⟨Int64.le_toInt n, Int64.toInt_le n⟩)
    int64_cast_eq_iff fun n => Number.decimalText_toString n.toInt

theorem uint32_readsDecimal :
    Codec.uint32.ReadsDecimal false 0 (UInt32.size - 1 : Nat) fun n => (n.toNat : Int) :=
  textualCodec_readsDecimal (by decide) (by decide)
    (fun n => ⟨Int.natCast_nonneg _, by have := n.toNat_lt; omega⟩) uint32_cast_eq_iff
    fun n => Number.decimalText_repr _ n.toNat

theorem uint64_readsDecimal :
    Codec.uint64.ReadsDecimal false 0 (UInt64.size - 1 : Nat) fun n => (n.toNat : Int) :=
  textualCodec_readsDecimal (by decide) (by decide)
    (fun n => ⟨Int.natCast_nonneg _, by have := n.toNat_lt; omega⟩) uint64_cast_eq_iff
    fun n => Number.decimalText_repr _ n.toNat

/-- The integer codecs read decimal texts exactly: each reads a value from the UTF-8 encoding of
a decimal text of that value between blanks (one or more ASCII digits after an optional `+`, or,
for the signed widths, `-`), reads something exactly from such a text of a value between the
width's least and greatest values, fails otherwise with a decoding error naming its type, and
reads back every value it writes, the least and the greatest included. -/
theorem integer_codecs_read_decimal_texts :
    Codec.int32.ReadsDecimal true Int32.minValue.toInt Int32.maxValue.toInt Int32.toInt ∧
    Codec.int64.ReadsDecimal true Int64.minValue.toInt Int64.maxValue.toInt Int64.toInt ∧
    Codec.uint32.ReadsDecimal false 0 (UInt32.size - 1 : Nat) (fun n => (n.toNat : Int)) ∧
    Codec.uint64.ReadsDecimal false 0 (UInt64.size - 1 : Nat) (fun n => (n.toNat : Int)) :=
  ⟨int32_readsDecimal, int64_readsDecimal, uint32_readsDecimal, uint64_readsDecimal⟩

end Chaincode
