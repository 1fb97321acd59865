import Chaincode.Proofs.IntegerText

/-!
# Plain codecs read back what they write

Every plain type that is not an option reads back each value it writes. An option writes nothing
as the empty string and something as the encoding of what it holds, and reads the empty string as
nothing. So something reads back as itself exactly when what it holds has a non-empty encoding:
`some ""`, `some []`, `some ()` and `some none` all read back as nothing. Which values encode to
the empty string is a matter of the type, through any depth of options.

Reading is stable (a value read from some bytes, written and read again, is read again) for every
plain type except the options whose innermost type is unit. Those read every non-empty string as
something and write that something as the empty string, which reads back as nothing. For every
other type a value read from non-empty bytes has a non-empty encoding, and that is all stability
needs.
-/

namespace Chaincode

namespace Plain

/-- Whether a plain type is an option. -/
def isOption : Plain → Bool
  | .option _ => true
  | _ => false

/-- The type under all the options of a plain type. -/
def innermost : Plain → Plain
  | .option t => t.innermost
  | t => t

/-- An option, of any depth, of the unit type. -/
def WrapsUnit (t : Plain) : Prop := t.isOption = true ∧ t.innermost = .unit

instance : DecidablePred WrapsUnit := fun t =>
  inferInstanceAs (Decidable (t.isOption = true ∧ t.innermost = .unit))

@[simp] theorem innermost_option (t : Plain) : (option t).innermost = t.innermost := rfl

section Option

variable (t : Plain)

@[simp] theorem encode_none : (option t).codec.encode none = [] := rfl

@[simp] theorem encode_some (v : t.Val) : (option t).codec.encode (some v) = t.codec.encode v :=
  rfl

@[simp] theorem decode_option_nil : (option t).codec.decode [] = .ok none := rfl

theorem decode_option_of_ne_nil {b : Bytes} (nonempty : b ≠ []) :
    (option t).codec.decode b = (t.codec.decode b).map some := by
  cases b with
  | nil => exact absurd rfl nonempty
  | cons => rfl

/-- What an option reads from non-empty bytes is something its inner type reads from them. -/
theorem decode_option_eq_ok {b : Bytes} {x : Option t.Val} (nonempty : b ≠ [])
    (read : (option t).codec.decode b = .ok x) : ∃ v, x = some v ∧ t.codec.decode b = .ok v := by
  rw [decode_option_of_ne_nil t nonempty] at read
  cases inner : t.codec.decode b with
  | error e =>
    rw [inner] at read
    cases read
  | ok v =>
    rw [inner] at read
    cases read
    exact ⟨v, rfl, rfl⟩

end Option

/-! ## Round trips -/

theorem bool_decode_encode (b : Bool) : Codec.bool.decode (Codec.bool.encode b) = .ok b := by
  refine textualCodec_decode_eq_ok_iff.mpr ⟨_, rfl, ?_⟩
  cases b <;> rfl

theorem text_decode_encode (s : String) : Codec.text.decode (Codec.text.encode s) = .ok s :=
  readText_eq_ok_iff.mpr rfl

/-- Every plain type that is not an option reads back what it writes. -/
theorem decode_encode_of_not_option :
    ∀ t : Plain, t.isOption = false → ∀ x : t.Val, t.codec.decode (t.codec.encode x) = .ok x
  | .bool, _, b => bool_decode_encode b
  | .i32, _, n => int32_readsDecimal.round_trip n
  | .i64, _, n => int64_readsDecimal.round_trip n
  | .u32, _, n => uint32_readsDecimal.round_trip n
  | .u64, _, n => uint64_readsDecimal.round_trip n
  | .text, _, s => text_decode_encode s
  | .bytes, _, _ => rfl
  | .unit, _, _ => rfl
  | .option _, notOption, _ => by cases notOption

/-- A value whose encoding is not empty reads back, through any depth of options. -/
theorem decode_encode_of_ne_nil :
    ∀ (t : Plain) (x : t.Val), t.codec.encode x ≠ [] →
      t.codec.decode (t.codec.encode x) = .ok x
  | .option _, none, nonempty => absurd rfl nonempty
  | .option t, some v, nonempty => by
    rw [encode_some] at nonempty ⊢
    rw [decode_option_of_ne_nil t nonempty, decode_encode_of_ne_nil t v nonempty]
    rfl
  | .bool, x, _ | .i32, x, _ | .i64, x, _ | .u32, x, _ | .u64, x, _ | .text, x, _
  | .bytes, x, _ | .unit, x, _ => decode_encode_of_not_option _ rfl x

/-- An option reads back what it writes exactly for nothing and for something whose encoding is
not empty. -/
theorem option_decode_encode_iff (t : Plain) (x : Option t.Val) :
    (option t).codec.decode ((option t).codec.encode x) = .ok x ↔
      x = none ∨ (option t).codec.encode x ≠ [] := by
  cases x with
  | none => simp
  | some v =>
    by_cases empty : t.codec.encode v = []
    · -- the empty encoding reads back as nothing
      simp [empty]
    · simp only [reduceCtorEq, false_or]
      exact ⟨fun _ => empty, decode_encode_of_ne_nil (option t) (some v)⟩

/-! ## Empty encodings -/

theorem ofString_eq_nil_iff {s : String} : Bytes.ofString s = [] ↔ s = "" := by
  constructor
  · intro empty
    exact Text.Utf8.ofString_injective (empty.trans rfl)
  · rintro rfl
    rfl

theorem repr_ne_empty_int (v : Int) : toString v ≠ "" := by
  cases v with
  | ofNat n => exact Nat.repr_ne_empty
  | negSucc n =>
    intro empty
    have length := congrArg String.length empty
    simp [toString, Int.repr] at length

/-- What a type other than the unit reads from non-empty bytes has a non-empty encoding, through
any depth of options. -/
theorem encode_ne_nil_of_decode :
    ∀ (t : Plain) {b : Bytes} {x : t.Val}, t.innermost ≠ .unit → b ≠ [] →
      t.codec.decode b = .ok x → t.codec.encode x ≠ []
  | .bool, _, x, _, _, _ => by cases x <;> decide
  | .i32, _, n, _, _, _ => mt ofString_eq_nil_iff.mp (repr_ne_empty_int n.toInt)
  | .i64, _, n, _, _, _ => mt ofString_eq_nil_iff.mp (repr_ne_empty_int n.toInt)
  | .u32, _, n, _, _, _ => mt ofString_eq_nil_iff.mp Nat.repr_ne_empty
  | .u64, _, n, _, _, _ => mt ofString_eq_nil_iff.mp Nat.repr_ne_empty
  | .text, _, s, _, nonempty, read => by
    -- text is read only from its own encoding
    have encoded := readText_eq_ok_iff.mp read
    show Bytes.ofString s ≠ []
    rwa [← encoded]
  | .bytes, _, _, _, nonempty, read => by
    cases read
    exact nonempty
  | .unit, _, _, notUnit, _, _ => absurd rfl notUnit
  | .option t, _, _, notUnit, nonempty, read => by
    obtain ⟨v, rfl, inner⟩ := decode_option_eq_ok t nonempty read
    exact encode_ne_nil_of_decode t notUnit nonempty inner

/-- Options of the unit type, at any depth, encode everything as the empty string. -/
theorem encode_eq_nil_of_innermost_unit :
    ∀ (t : Plain), t.innermost = .unit → ∀ x : t.Val, t.codec.encode x = []
  | .unit, _, _ => rfl
  | .option _, _, none => rfl
  | .option t, innerUnit, some v => encode_eq_nil_of_innermost_unit t innerUnit v
  | .bool, innerUnit, _ | .i32, innerUnit, _ | .i64, innerUnit, _ | .u32, innerUnit, _
  | .u64, innerUnit, _ | .text, innerUnit, _ | .bytes, innerUnit, _ => by cases innerUnit

/-- Options of the unit type, at any depth, read something from every byte string. -/
theorem decode_ok_of_innermost_unit :
    ∀ (t : Plain), t.innermost = .unit → ∀ b, ∃ x : t.Val, t.codec.decode b = .ok x
  | .unit, _, _ => ⟨(), rfl⟩
  | .option t, innerUnit, b => by
    by_cases empty : b = []
    · exact ⟨none, by rw [empty]; rfl⟩
    · obtain ⟨v, read⟩ := decode_ok_of_innermost_unit t innerUnit b
      exact ⟨some v, by rw [decode_option_of_ne_nil t empty, read]; rfl⟩
  | .bool, innerUnit, _ | .i32, innerUnit, _ | .i64, innerUnit, _ | .u32, innerUnit, _
  | .u64, innerUnit, _ | .text, innerUnit, _ | .bytes, innerUnit, _ => by cases innerUnit

/-! ## Stability -/

/-- Reading, writing and reading again gives what was first read. -/
def Stable (t : Plain) : Prop :=
  ∀ b (x : t.Val), t.codec.decode b = .ok x → t.codec.decode (t.codec.encode x) = .ok x

theorem stable_of_not_wrapsUnit {t : Plain} (notWraps : ¬ t.WrapsUnit) : t.Stable := by
  intro b x read
  cases t with
  | option t =>
    have notUnit : t.innermost ≠ .unit := fun innerUnit => notWraps ⟨rfl, innerUnit⟩
    by_cases empty : b = []
    · subst empty
      cases read
      rfl
    · obtain ⟨v, rfl, inner⟩ := decode_option_eq_ok t empty read
      exact decode_encode_of_ne_nil (option t) (some v)
        (encode_ne_nil_of_decode t notUnit empty inner)
  | _ => exact decode_encode_of_not_option _ rfl x

/-- An option of the unit type reads every non-empty string as something that reads back as
nothing. -/
theorem unstable_of_wrapsUnit {t : Plain} (wraps : t.WrapsUnit) {b : Bytes}
    (nonempty : b ≠ []) :
    ∃ x : t.Val, t.codec.decode b = .ok x ∧ t.codec.decode (t.codec.encode x) ≠ .ok x := by
  obtain ⟨isOption, innerUnit⟩ := wraps
  cases t with
  | option t =>
    obtain ⟨v, read⟩ := decode_ok_of_innermost_unit t innerUnit b
    refine ⟨some v, by rw [decode_option_of_ne_nil t nonempty, read]; rfl, ?_⟩
    rw [encode_some, encode_eq_nil_of_innermost_unit t innerUnit v]
    simp
  | _ => cases isOption

end Plain

/-- Plain codecs read back what they write, with the exception of options characterised exactly:
every value of a type that is not an option reads back; a value of an option type reads back
exactly when it is nothing or its encoding is not empty; reading is stable for every plain type
except the options of the unit type at any depth, which break it on every non-empty string. -/
theorem plain_codecs_round_trip :
    (∀ t : Plain, t.isOption = false → ∀ x : t.Val,
      t.codec.decode (t.codec.encode x) = .ok x) ∧
    (∀ (t : Plain) (x : Option t.Val),
      (Plain.option t).codec.decode ((Plain.option t).codec.encode x) = .ok x ↔
        x = none ∨ (Plain.option t).codec.encode x ≠ []) ∧
    (∀ t : Plain, t.Stable ↔ ¬ t.WrapsUnit) ∧
    (∀ t : Plain, t.WrapsUnit → ∀ b : Bytes, b ≠ [] →
      ∃ x : t.Val, t.codec.decode b = .ok x ∧ t.codec.decode (t.codec.encode x) ≠ .ok x) := by
  refine ⟨Plain.decode_encode_of_not_option, Plain.option_decode_encode_iff, fun t => ?_,
    fun t wraps b nonempty => Plain.unstable_of_wrapsUnit wraps nonempty⟩
  constructor
  · -- an option of the unit type breaks on the one-byte string
    intro stable wraps
    obtain ⟨x, read, broken⟩ :=
      Plain.unstable_of_wrapsUnit wraps (show [(0 : UInt8)] ≠ [] by simp)
    exact broken (stable _ x read)
  · exact Plain.stable_of_not_wrapsUnit

/-- Text is no option and reads back the empty text; an option of the unit type reads the byte
`0` as something that does not read back. -/
theorem emptyText_and_optionalUnit_round_trips :
    Plain.text.isOption = false ∧ Codec.text.decode (Codec.text.encode "") = .ok "" ∧
      (Plain.option .unit).WrapsUnit ∧ [(0 : UInt8)] ≠ [] ∧
      ∃ x : Option Unit, (Plain.option .unit).codec.decode [0] = .ok x ∧
        (Plain.option .unit).codec.decode ((Plain.option .unit).codec.encode x) ≠ .ok x :=
  ⟨rfl, plain_codecs_round_trip.1 .text rfl "", ⟨rfl, rfl⟩, by simp,
    plain_codecs_round_trip.2.2.2 (.option .unit) ⟨rfl, rfl⟩ [0] (by simp)⟩

end Chaincode
