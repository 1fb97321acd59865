import Mathlib.Tactic.IntervalCases
import Mathlib.Tactic.Ring
import Mathlib.Data.List.TakeWhile
import Chaincode.Proofs.Mapping
import Chaincode.Time.Parse

/-!
# Reading back a written instant

`render` writes an instant in RFC 3339 and `parse` reads one. Every instant whose year lies in
the calendar's range, and whose leap second, if any, is the last second of a minute, reads back
as itself; and every instant `parseStrict` reads from text is such an instant.

The calendar carries the weight: `civilFromDays` always gives a date that exists, and
`daysFromCivil` takes it back to its day. Within an era of 400 years the day splits into
centuries of 36524 days and blocks of 1461 days, and the year of the era, the day of the year and
the month follow from that split by linear arithmetic.
-/
namespace Chaincode.Timestamp

theorem yearOfEra_bounds {doe yoe doy : Int} (lower : 0 ≤ doe) (upper : doe ≤ 146096)
    (yoe_def : yoe = (doe - doe / 1460 + doe / 36524 - doe / 146096) / 365)
    (doy_def : doy = doe - (365 * yoe + yoe / 4 - yoe / 100)) :
    0 ≤ yoe ∧ yoe ≤ 399 ∧ 0 ≤ doy ∧ doy ≤ 365 ∧
      (doy = 365 → (yoe + 1) % 4 = 0 ∧ ((yoe + 1) % 100 ≠ 0 ∨ (yoe + 1) % 400 = 0)) := by
  rcases Int.lt_or_eq_of_le upper with inside | last
  · -- the era splits into centuries of 36524 days and those into blocks of 1461 days
    obtain ⟨c, hc⟩ : ∃ c, c = doe / 36524 := ⟨_, rfl⟩
    obtain ⟨q, hq⟩ : ∃ q, q = (doe - 36524 * c) / 1461 := ⟨_, rfl⟩
    obtain ⟨w, hw⟩ : ∃ w, w = doe - 36524 * c - 1461 * q := ⟨_, rfl⟩
    have ranges : 0 ≤ c ∧ c ≤ 3 ∧ 0 ≤ q ∧ q ≤ 24 ∧ 0 ≤ w ∧ w ≤ 1460 := by omega
    have lastBlock : q = 24 → w ≤ 1459 := by omega
    have d146096 : doe / 146096 = 0 := by omega
    have d36524 : doe / 36524 = c := hc.symm
    obtain ⟨δ, hδ⟩ : ∃ δ, δ = (24 * c + q + w) / 1460 := ⟨_, rfl⟩
    have δ_range : 0 ≤ δ ∧ δ ≤ 1 := by omega
    have leapDay : w = 1460 → δ = 1 := by omega
    have late : δ = 1 → 1364 ≤ w := by omega
    have d1460 : doe / 1460 = 25 * c + q + δ := by omega
    obtain ⟨j, hj⟩ : ∃ j, j = (w - δ) / 365 := ⟨_, rfl⟩
    have yoe_eq : yoe = 100 * c + 4 * q + j := by
      rw [yoe_def, d1460, d36524, d146096]
      omega
    have j_range : 0 ≤ j ∧ j ≤ 3 := by omega
    have q4 : yoe / 4 = 25 * c + q := by omega
    have q100 : yoe / 100 = c := by omega
    have doy_eq : doy = w - 365 * j := by
      rw [doy_def, q4, q100, yoe_eq]
      omega
    omega
  · subst last
    omega


/-- The day of a March-based year as a month and a day of the month: the months from March on
have 31, 30, 31, 30, 31, 31, 30, 31, 30, 31, 31 days and February the rest. -/
theorem monthDay_bounds {doy mp d : Int} (lower : 0 ≤ doy) (upper : doy ≤ 365)
    (mp_def : mp = (5 * doy + 2) / 153) (d_def : d = doy - (153 * mp + 2) / 5 + 1) :
    0 ≤ mp ∧ mp ≤ 11 ∧ 1 ≤ d ∧
      d ≤ (if mp = 11 then (if doy = 365 then 29 else 28)
        else if mp = 1 ∨ mp = 3 ∨ mp = 6 ∨ mp = 8 then 30 else 31) := by
  have mp_range : 0 ≤ mp ∧ mp ≤ 11 := by omega
  obtain ⟨mp_lower, mp_upper⟩ := mp_range
  refine ⟨mp_lower, mp_upper, by omega, ?_⟩
  interval_cases mp <;> omega


/-- The date `civilFromDays` gives, its era arithmetic spelled out step by step. -/
theorem civilFromDays_eq_of {days z era doe yoe doy mp d m : Int}
    (z_def : z = days + 719468) (era_def : era = z / 146097) (doe_def : doe = z - era * 146097)
    (yoe_def : yoe = (doe - doe / 1460 + doe / 36524 - doe / 146096) / 365)
    (doy_def : doy = doe - (365 * yoe + yoe / 4 - yoe / 100))
    (mp_def : mp = (5 * doy + 2) / 153) (d_def : d = doy - (153 * mp + 2) / 5 + 1)
    (m_def : m = if mp < 10 then mp + 3 else mp - 9) :
    civilFromDays days =
      (if m ≤ 2 then yoe + era * 400 + 1 else yoe + era * 400, m.toNat, d.toNat) := by
  subst_vars
  rfl

/-- `civilFromDays` gives a date that exists, and `daysFromCivil` takes it back to its day. -/
theorem civilFromDays_spec {days year : Int} {month day : Nat}
    (civil : civilFromDays days = (year, month, day)) :
    1 ≤ month ∧ month ≤ 12 ∧ 1 ≤ day ∧ day ≤ daysInMonth year month ∧
      daysFromCivil year month day = days := by
  obtain ⟨z, z_def⟩ : ∃ z, z = days + 719468 := ⟨_, rfl⟩
  obtain ⟨era, era_def⟩ : ∃ era, era = z / 146097 := ⟨_, rfl⟩
  obtain ⟨doe, doe_def⟩ : ∃ doe, doe = z - era * 146097 := ⟨_, rfl⟩
  obtain ⟨yoe, yoe_def⟩ : ∃ yoe, yoe = (doe - doe / 1460 + doe / 36524 - doe / 146096) / 365 :=
    ⟨_, rfl⟩
  obtain ⟨doy, doy_def⟩ : ∃ doy, doy = doe - (365 * yoe + yoe / 4 - yoe / 100) := ⟨_, rfl⟩
  obtain ⟨mp, mp_def⟩ : ∃ mp, mp = (5 * doy + 2) / 153 := ⟨_, rfl⟩
  obtain ⟨d, d_def⟩ : ∃ d, d = doy - (153 * mp + 2) / 5 + 1 := ⟨_, rfl⟩
  obtain ⟨m, m_def⟩ : ∃ m, m = if mp < 10 then mp + 3 else mp - 9 := ⟨_, rfl⟩
  rw [civilFromDays_eq_of z_def era_def doe_def yoe_def doy_def mp_def d_def m_def] at civil
  simp only [Prod.mk.injEq] at civil
  obtain ⟨rfl, rfl, rfl⟩ := civil
  have doe_range : 0 ≤ doe ∧ doe ≤ 146096 := by omega
  obtain ⟨yoe_lower, yoe_upper, doy_lower, doy_upper, leapDay⟩ :=
    yearOfEra_bounds doe_range.1 doe_range.2 yoe_def doy_def
  obtain ⟨mp_lower, mp_upper, d_lower, d_upper⟩ := monthDay_bounds doy_lower doy_upper mp_def d_def
  obtain ⟨M, rfl⟩ : ∃ M : Nat, (M : Int) = m := ⟨m.toNat, by split_ifs at m_def <;> omega⟩
  obtain ⟨D, rfl⟩ : ∃ D : Nat, (D : Int) = d := ⟨d.toNat, by omega⟩
  simp only [Int.toNat_natCast]
  have eraBack : (yoe + era * 400) / 400 = era := by omega
  -- March to December belong to the year of the era, January and February to the next
  by_cases spring : mp < 10
  · rw [if_pos spring] at m_def
    have notEarly : ¬ (M : Int) ≤ 2 := by omega
    rw [if_neg notEarly]
    refine ⟨by omega, by omega, by omega, ?_, ?_⟩
    · simp only [daysInMonth]
      split_ifs <;> omega
    · have notEarly' : ¬ M ≤ 2 := by omega
      have late : M > 2 := by omega
      simp only [daysFromCivil, if_neg notEarly', if_pos late, eraBack, Int.add_sub_cancel]
      omega
  · rw [if_neg spring] at m_def
    have early : (M : Int) ≤ 2 := by omega
    rw [if_pos early]
    refine ⟨by omega, by omega, by omega, ?_, ?_⟩
    · have leapYear : isLeapYear (yoe + era * 400 + 1) = true ↔
          (yoe + 1) % 4 = 0 ∧ ((yoe + 1) % 100 ≠ 0 ∨ (yoe + 1) % 400 = 0) := by
        have mod4 : (yoe + era * 400 + 1) % 4 = (yoe + 1) % 4 := by omega
        have mod100 : (yoe + era * 400 + 1) % 100 = (yoe + 1) % 100 := by omega
        have mod400 : (yoe + era * 400 + 1) % 400 = (yoe + 1) % 400 := by omega
        simp only [isLeapYear, Bool.and_eq_true, Bool.or_eq_true, decide_eq_true_eq, mod4,
          mod100, mod400]
      simp only [daysInMonth]
      split_ifs with february leap
      · omega
      · have notLast : doy ≠ 365 := fun last => leap (leapYear.mpr (leapDay last))
        omega
      · omega
      · omega
    · have early' : M ≤ 2 := by omega
      have notLate : ¬ M > 2 := by omega
      simp only [daysFromCivil, if_pos early', if_neg notLate, Int.add_sub_cancel, eraBack]
      omega


theorem isDigitChar_iff (c : Char) : isDigitChar c = true ↔ 48 ≤ c.toNat ∧ c.toNat ≤ 57 := by
  simp only [isDigitChar, Bool.and_eq_true, decide_eq_true_eq, Char.le_def, Char.toNat]
  constructor <;> intro h <;> simp_all [UInt32.le_iff_toNat_le]

/-- Digits read into a running value: each shifts it one place and adds itself. -/
theorem foldl_toDigits {R : Type} [CommSemiring R] (n : Nat) (acc : R) :
    (Nat.toDigits 10 n).foldl (fun v c => v * 10 + ((c.toNat - 48 : Nat) : R)) acc =
      acc * 10 ^ (Nat.toDigits 10 n).length + n := by
  induction n using Nat.strong_induction_on generalizing acc with
  | _ n ih =>
    rw [Nat.toDigits_eq_if (by omega)]
    split
    case isTrue small =>
      simp [Nat.toNat_digitChar_sub_48_of_lt_ten small]
    case isFalse large =>
      have shorter : n / 10 < n := by omega
      rw [List.foldl_append, ih (n / 10) shorter, List.foldl_cons, List.foldl_nil,
        Nat.toNat_digitChar_sub_48_of_lt_ten (Nat.mod_lt n (by omega)), List.length_append,
        List.length_singleton, pow_succ]
      have split : (n : R) = ((n / 10 : Nat) : R) * 10 + ((n % 10 : Nat) : R) := by
        have whole : n = n / 10 * 10 + n % 10 := by omega
        conv_lhs => rw [whole]
        push_cast
        rfl
      rw [split]
      ring

theorem foldl_zeros (k : Nat) (acc : Int) :
    (List.replicate k '0').foldl (fun v c => v * 10 + ((c.toNat - 48 : Nat) : Int)) acc =
      acc * 10 ^ k := by
  induction k generalizing acc with
  | zero => simp
  | succ k ih =>
    rw [List.replicate_succ, List.foldl_cons, ih, pow_succ]
    have zero : ('0'.toNat - 48 : Nat) = 0 := rfl
    rw [zero]
    ring

theorem toList_padNat (w n : Nat) :
    (Text.padNat w n).toList =
      List.replicate (w - (Nat.toDigits 10 n).length) '0' ++ Nat.toDigits 10 n := by
  simp [Text.padNat]

/-- The characters of a number padded with zeros are digits. -/
theorem isDigitChar_of_mem_padNat {w n : Nat} {c : Char} (mem : c ∈ (Text.padNat w n).toList) :
    isDigitChar c = true := by
  rw [toList_padNat, List.mem_append, List.mem_replicate] at mem
  rcases mem with ⟨-, rfl⟩ | digit
  · rfl
  · exact Nat.isDigit_of_mem_toDigits (by omega) (by omega) digit

theorem foldl_padNat (w n : Nat) :
    (Text.padNat w n).toList.foldl (fun v c => v * 10 + ((c.toNat - 48 : Nat) : Int)) 0 = n := by
  rw [toList_padNat, List.foldl_append, foldl_zeros, foldl_toDigits]
  simp

theorem length_padNat {w n : Nat} (positive : 0 < w) (fits : n < 10 ^ w) :
    (Text.padNat w n).toList.length = w := by
  have short := (Nat.length_toDigits_le_iff (by omega) positive).mpr fits
  rw [toList_padNat, List.length_append, List.length_replicate]
  omega

/-- A run of digits scans to its value when the scan stops at its end: its length is the limit, or
what follows is not a digit and the limit does not cut it. -/
theorem scanNumber_digits {ds rest : List Char} {limit : Option Nat} {v : Nat}
    (nonempty : ds ≠ []) (digits : ∀ c ∈ ds, isDigitChar c = true)
    (value : ds.foldl (fun v c => v * 10 + ((c.toNat - 48 : Nat) : Int)) 0 = v)
    (small : v ≤ 9223372036854775807) (within : ∀ k, limit = some k → ds.length ≤ k)
    (stops : limit = some ds.length ∨ ∀ c ∈ rest.head?, isDigitChar c = false) :
    scanNumber (ds ++ rest) limit = .ok (v, rest) := by
  obtain ⟨first, others, rfl⟩ := List.exists_cons_of_ne_nil nonempty
  have whole : ((first :: others) ++ rest).takeWhile isDigitChar = first :: others ∨
      limit = some (first :: others).length := by
    rcases stops with cut | stop
    · exact .inr cut
    · left
      rw [List.takeWhile_append_of_pos digits]
      cases rest with
      | nil => simp
      | cons c rest' => simp [stop c rfl]
  have run : ((((first :: others) ++ rest).take
      (limit.getD ((first :: others) ++ rest).length)).takeWhile isDigitChar) = first :: others := by
    rcases whole with whole | cut
    · cases limit with
      | none => rw [Option.getD_none, List.take_length, whole]
      | some k =>
        rw [Option.getD_some, List.take_append, List.take_of_length_le (within k rfl),
          List.takeWhile_append_of_pos digits]
        rw [List.takeWhile_append_of_pos digits] at whole
        have rests : (rest.take (k - (first :: others).length)).takeWhile isDigitChar = [] := by
          have empty : rest.takeWhile isDigitChar = [] := by simpa using whole
          cases rest with
          | nil => simp
          | cons c rest' =>
            cases k - (first :: others).length with
            | zero => simp
            | succ n => simpa [List.takeWhile_cons] using empty
        rw [rests, List.append_nil]
    · rw [cut, Option.getD_some, List.take_left]
      exact List.takeWhile_eq_self_iff.mpr digits
  simp only [scanNumber, List.cons_append, digits first List.mem_cons_self, Bool.not_true,
    Bool.false_eq_true, ↓reduceIte]
  rw [← List.cons_append, run, digitsValue, value]
  simp [Except.map, show ¬ ((v : Int) > 9223372036854775807) by omega]

theorem skipBlanks_of_not_isBlank {c : Char} (rest : List Char) (notBlank : Text.isBlank c = false) :
    skipBlanks (c :: rest) = c :: rest := by
  simp [skipBlanks, notBlank]

theorem isBlank_of_isDigitChar {c : Char} (digit : isDigitChar c = true) : Text.isBlank c = false := by
  rw [isDigitChar_iff] at digit
  simp only [Text.isBlank, Bool.or_eq_false_iff, Bool.and_eq_false_iff, decide_eq_false_iff_not]
  omega

/-- A padded number starts with a digit. -/
theorem exists_cons_padNat (w n : Nat) :
    ∃ first others, (Text.padNat w n).toList = first :: others ∧ isDigitChar first = true := by
  have nonempty : (Text.padNat w n).toList ≠ [] := by
    rw [toList_padNat]
    simp
  obtain ⟨first, others, chars⟩ := List.exists_cons_of_ne_nil nonempty
  have mem : first ∈ (Text.padNat w n).toList := by
    rw [chars]
    exact List.mem_cons_self
  exact ⟨first, others, chars, isDigitChar_of_mem_padNat mem⟩

theorem skipBlanks_padNat (w n : Nat) (rest : List Char) :
    skipBlanks ((Text.padNat w n).toList ++ rest) = (Text.padNat w n).toList ++ rest := by
  obtain ⟨first, others, chars, digit⟩ := exists_cons_padNat w n
  rw [chars, List.cons_append, skipBlanks_of_not_isBlank _ (isBlank_of_isDigitChar digit)]

/-- The digits of a number padded to `w`, scanned at most `w` at a time. -/
theorem scanNumber_padNat_some {w n : Nat} (rest : List Char) (positive : 0 < w)
    (fits : n < 10 ^ w) (small : n ≤ 9223372036854775807) :
    scanNumber ((Text.padNat w n).toList ++ rest) (some w) = .ok (n, rest) := by
  have length := length_padNat positive fits
  obtain ⟨first, others, chars, -⟩ := exists_cons_padNat w n
  exact scanNumber_digits (by simp [chars]) (fun c mem => isDigitChar_of_mem_padNat mem)
    (foldl_padNat w n) small (fun k same => by cases same; omega) (.inl (by rw [length]))

/-- The digits of a number padded to `w`, scanned to the first character that is not a digit. -/
theorem scanNumber_padNat_none {w n : Nat} (rest : List Char)
    (small : n ≤ 9223372036854775807) (stop : ∀ c ∈ rest.head?, isDigitChar c = false) :
    scanNumber ((Text.padNat w n).toList ++ rest) none = .ok (n, rest) := by
  obtain ⟨first, others, chars, -⟩ := exists_cons_padNat w n
  exact scanNumber_digits (by simp [chars]) (fun c mem => isDigitChar_of_mem_padNat mem)
    (foldl_padNat w n) small (fun k none => by cases none) (.inr stop)

/-- A number padded to `w` digits scans back as a field of width `w` within its range. -/
theorem scanField_padNat {w n : Nat} {lo hi : Int} (rest : List Char) (positive : 0 < w)
    (fits : n < 10 ^ w) (small : n ≤ 9223372036854775807) (inRange : lo ≤ n ∧ n ≤ hi) :
    scanField ((Text.padNat w n).toList ++ rest) w lo hi = .ok (n, rest) := by
  simp only [scanField, skipBlanks_padNat, scanNumber_padNat_some rest positive fits small]
  simp [show ¬ ((n : Int) < lo ∨ hi < n) by omega, Int.toNat_natCast]

theorem ne_of_isDigitChar {c d : Char} (digit : isDigitChar c = true) (notDigit : isDigitChar d = false) :
    c ≠ d := by
  rintro rfl
  rw [digit] at notDigit
  cases notDigit

/-- A year of the calendar, as RFC 3339 writes it, scans back before a dash. -/
theorem scanYear_renderYear {year : Int} {rest : List Char} (inCal : inCalendar year = true)
    (stop : ∀ c ∈ rest.head?, isDigitChar c = false) :
    scanYear ((renderYear year).toList ++ rest) = .ok (year, rest) := by
  simp only [inCalendar, Bool.and_eq_true, decide_eq_true_eq] at inCal
  unfold renderYear
  split_ifs with fourDigits negative
  · -- four digits without a sign
    obtain ⟨first, others, chars, firstDigit⟩ := exists_cons_padNat 4 year.toNat
    have scanned := scanNumber_padNat_some rest (show 0 < 4 by omega)
      (show year.toNat < 10 ^ 4 by omega) (by omega)
    rw [chars, List.cons_append] at scanned ⊢
    have notMinus : first ≠ '-' := ne_of_isDigitChar firstDigit rfl
    have notPlus : first ≠ '+' := ne_of_isDigitChar firstDigit rfl
    simp only [scanYear, skipBlanks_of_not_isBlank _ (isBlank_of_isDigitChar firstDigit)]
    split
    · next signed => exact absurd (List.cons_eq_cons.mp signed).1 notMinus
    · next signed => exact absurd (List.cons_eq_cons.mp signed).1 notPlus
    · simp [scanned, Int.toNat_of_nonneg fourDigits.1]
      omega
  · -- a minus sign and the digits of the magnitude
    have scanned := scanNumber_padNat_none (w := 4) (n := year.natAbs) rest (by omega) stop
    have minus : Text.isBlank '-' = false := by decide
    have magnitude : (year.natAbs : Int) = -year := by omega
    simp only [scanYear, String.toList_append, List.append_assoc]
    simp only [show "-".toList = ['-'] from rfl, List.cons_append, List.nil_append,
      skipBlanks_of_not_isBlank _ minus, scanned, Except.ok_bind]
    simp only [Except.pure_eq, Except.ok_bind]
    rw [if_neg (by omega), magnitude, Int.neg_neg]
  · -- a plus sign and the digits
    have scanned := scanNumber_padNat_none (w := 4) (n := year.natAbs) rest (by omega) stop
    have plus : Text.isBlank '+' = false := by decide
    have magnitude : (year.natAbs : Int) = year := by omega
    simp only [scanYear, String.toList_append, List.append_assoc]
    simp only [show "+".toList = ['+'] from rfl, List.cons_append, List.nil_append,
      skipBlanks_of_not_isBlank _ plus, scanned, Except.ok_bind]
    rw [if_neg (by omega), magnitude]

/-- A fraction of `k` digits, followed by what is not a digit, scans to nanoseconds. -/
theorem scanFraction_padNat {k v : Nat} (rest : List Char) (positive : 0 < k) (atMost : k ≤ 9)
    (fits : v < 10 ^ k) (stop : ∀ c ∈ rest.head?, isDigitChar c = false) :
    scanFraction ('.' :: ((Text.padNat k v).toList ++ rest)) = .ok (v * 10 ^ (9 - k), rest) := by
  have length := length_padNat positive fits
  have scanned : scanNumber ((Text.padNat k v).toList ++ rest) (some 9) = .ok (v, rest) :=
    scanNumber_digits (List.ne_nil_of_length_pos (by omega)) (fun c mem => isDigitChar_of_mem_padNat mem) (foldl_padNat k v)
      (by have : 10 ^ k ≤ 10 ^ 9 := Nat.pow_le_pow_right (by omega) atMost; omega)
      (fun j same => by cases same; omega) (.inr stop)
  have kept : rest.dropWhile isDigitChar = rest := by
    cases rest with
    | nil => rfl
    | cons c rest' => simp [stop c rfl]
  simp only [scanFraction, scanned, Except.ok_bind, List.length_append, length, kept,
    Nat.add_sub_cancel, Int.toNat_natCast]
  rfl

/-- The written fraction of a second reads back as its nanoseconds before the `Z`. -/
theorem scanFraction_renderFraction {nano : Nat} (small : nano < 1000000000) :
    scanFraction ((renderFraction nano).toList ++ ['Z']) = .ok (nano, ['Z']) := by
  have stop : ∀ c ∈ ['Z'].head?, isDigitChar c = false := by
    intro c mem
    cases Option.mem_def.mp mem
    rfl
  unfold renderFraction
  split_ifs with zero millis micros
  · subst zero
    rfl
  · have read := scanFraction_padNat ['Z'] (show 0 < 3 by omega) (by omega)
      (show nano / 1000000 < 10 ^ 3 by omega) stop
    have exact : nano / 1000000 * 10 ^ (9 - 3) = nano := by
      rw [show 10 ^ (9 - 3) = 1000000 from rfl]
      omega
    simp only [String.toList_append, show ".".toList = ['.'] from rfl, List.cons_append,
      List.nil_append, read, exact]
  · have read := scanFraction_padNat ['Z'] (show 0 < 6 by omega) (by omega)
      (show nano / 1000 < 10 ^ 6 by omega) stop
    have exact : nano / 1000 * 10 ^ (9 - 6) = nano := by
      rw [show 10 ^ (9 - 6) = 1000 from rfl]
      omega
    simp only [String.toList_append, show ".".toList = ['.'] from rfl, List.cons_append,
      List.nil_append, read, exact]
  · have read := scanFraction_padNat ['Z'] (show 0 < 9 by omega) (by omega)
      (show nano < 10 ^ 9 by omega) stop
    simp only [String.toList_append, show ".".toList = ['.'] from rfl, List.cons_append,
      List.nil_append, read]
    simp


/-- An instant its written form carries exactly: its year lies in the calendar's range, and a
leap second is the last second of a minute, less than a second into it. -/
def Valid (t : Timestamp) : Prop :=
  inCalendar (civilFromDays (t.seconds / 86400)).1 = true ∧
    (t.nanos < 1000000000 ∨ (t.nanos < 2000000000 ∧ t.seconds % 60 = 59))

instance : DecidablePred Valid := fun _ => inferInstanceAs (Decidable (_ ∧ _))

/-- A dash, colon or other non-blank literal is met where expected. -/
theorem expectChar_skipBlanks {c : Char} (rest : List Char) (notBlank : Text.isBlank c = false) :
    expectChar (skipBlanks (c :: rest)) c = .ok rest := by
  simp [skipBlanks_of_not_isBlank rest notBlank, expectChar]

theorem parse_render {t : Timestamp} (valid : t.Valid) : parse t.render = .ok t := by
  obtain ⟨inCal, nanosOk⟩ := valid
  obtain ⟨⟨year, month, day⟩, civil⟩ : ∃ date, civilFromDays (t.seconds / 86400) = date :=
    ⟨_, rfl⟩
  obtain ⟨monthLow, monthHigh, dayLow, dayHigh, back⟩ := civilFromDays_spec civil
  rw [civil] at inCal
  have inCal' := inCal
  simp only [inCalendar, Bool.and_eq_true, decide_eq_true_eq] at inCal'
  have dashStop : ∀ rest : List Char, ∀ c ∈ ('-' :: rest).head?, isDigitChar c = false := by
    intro rest c mem
    cases mem
    rfl
  unfold parse render
  rw [civil]
  dsimp only
  simp only [String.toList_append, show "-".toList = ['-'] from rfl,
    show "T".toList = ['T'] from rfl, show ":".toList = [':'] from rfl,
    show "Z".toList = ['Z'] from rfl, List.append_assoc, List.cons_append, List.nil_append]
  generalize secDef : (t.seconds % 86400).toNat = sec
  generalize secondDef : sec % 60 + (if t.nanos ≥ 1000000000 then 1 else 0) = second
  generalize nanoDef : (if t.nanos ≥ 1000000000 then t.nanos - 1000000000 else t.nanos) = nano
  have dayMost : day ≤ 31 := by
    have atMost : daysInMonth year month ≤ 31 := by
      unfold daysInMonth
      split_ifs <;> omega
    omega
  have secRange : sec < 86400 := by omega
  have secondRange : second ≤ 60 := by split_ifs at secondDef <;> omega
  have nanoRange : nano < 1000000000 := by split_ifs at nanoDef <;> omega
  have field : ∀ {n : Nat} {lo hi : Int} (rest : List Char), n < 100 → lo ≤ n → n ≤ hi →
      scanField ((Text.padNat 2 n).toList ++ rest) 2 lo hi = .ok (n, rest) :=
    fun rest small low high => scanField_padNat rest (by omega) small (by omega) ⟨low, high⟩
  simp only [scanYear_renderYear inCal (dashStop _), Except.ok_bind,
    expectChar_skipBlanks _ (show Text.isBlank '-' = false by decide),
    expectChar_skipBlanks _ (show Text.isBlank ':' = false by decide),
    field _ (show month < 100 by omega) (show (1 : Int) ≤ month by omega)
      (show (month : Int) ≤ 12 by omega),
    field _ (show day < 100 by omega) (show (1 : Int) ≤ day by omega)
      (show (day : Int) ≤ 31 by omega),
    field _ (show sec / 3600 < 100 by omega) (show (0 : Int) ≤ (sec / 3600 : Nat) by omega)
      (show ((sec / 3600 : Nat) : Int) ≤ 23 by omega),
    field _ (show sec % 3600 / 60 < 100 by omega)
      (show (0 : Int) ≤ (sec % 3600 / 60 : Nat) by omega)
      (show ((sec % 3600 / 60 : Nat) : Int) ≤ 59 by omega),
    field _ (show second < 100 by omega) (show (0 : Int) ≤ second by omega)
      (show (second : Int) ≤ 60 by omega),
    scanFraction_renderFraction nanoRange, true_or, if_true, Except.pure_eq,
    show skipBlanks ['Z'] = ['Z'] from rfl, show startsWithUtc ['Z'] = false from rfl,
    show scanOffset ['Z'] = .ok (0, []) from rfl, Bool.false_eq_true, if_false,
    show skipBlanks [] = [] from rfl, List.isEmpty_nil, Bool.not_true]
  unfold atOffset
  simp only [inCal, Bool.not_true, Bool.false_eq_true, false_or]
  -- a leap second is written as second 60 of the minute, and read back as its 59th second
  -- with a second's worth of nanoseconds on top
  have seconds : daysFromCivil year month day * 86400 + ((sec / 3600 : Nat) : Int) * 3600 +
      ((sec % 3600 / 60 : Nat) : Int) * 60 + ((if second = 60 then 59 else second : Nat) : Int) -
        0 = t.seconds := by
    rw [back]
    split_ifs at secondDef nanoDef ⊢ <;> omega
  have nanos : nano + (if second = 60 then 1000000000 else 0) = t.nanos := by
    split_ifs at secondDef nanoDef ⊢ <;> omega
  rw [if_neg (by omega), if_neg (by omega), seconds, nanos, civil]
  simp [inCal]

/-! ## Instants read from text

Every instant read from text in the exact form is valid: its fraction holds fewer than a second
of nanoseconds and its offset is a whole number of minutes, so a leap second stays the last second
of its minute once moved to UTC, and the year is checked after the move. -/

/-- Digits read from a nonnegative start stay below that start plus one, shifted by as many
places as there are digits. -/
theorem foldl_digits_lt {ds : List Char} (digits : ∀ c ∈ ds, isDigitChar c = true) {acc : Int}
    (nonneg : 0 ≤ acc) :
    0 ≤ ds.foldl (fun v c => v * 10 + ((c.toNat - 48 : Nat) : Int)) acc ∧
      ds.foldl (fun v c => v * 10 + ((c.toNat - 48 : Nat) : Int)) acc <
        (acc + 1) * 10 ^ ds.length := by
  induction ds generalizing acc with
  | nil => simp only [List.foldl_nil, List.length_nil, pow_zero, mul_one]; omega
  | cons c rest ih =>
    have digit := (isDigitChar_iff c).mp (digits c List.mem_cons_self)
    obtain ⟨low, high⟩ := ih (fun d mem => digits d (List.mem_cons_of_mem c mem))
      (show 0 ≤ acc * 10 + ((c.toNat - 48 : Nat) : Int) by omega)
    refine ⟨low, lt_of_lt_of_le high ?_⟩
    -- one more digit multiplies the bound by ten
    have step : acc * 10 + ((c.toNat - 48 : Nat) : Int) + 1 ≤ (acc + 1) * 10 := by omega
    calc (acc * 10 + ((c.toNat - 48 : Nat) : Int) + 1) * 10 ^ rest.length
        ≤ (acc + 1) * 10 * 10 ^ rest.length :=
          Int.mul_le_mul_of_nonneg_right step (by positivity)
      _ = (acc + 1) * 10 ^ (c :: rest).length := by
          rw [List.length_cons, pow_succ]
          ring

/-- A number scanned with at most `k` digits takes `n ≤ k` digits from the text and is below
ten to the `n`. -/
theorem scanNumber_lt {s after : List Char} {k : Nat} {v : Int}
    (scanned : scanNumber s (some k) = .ok (v, after)) :
    ∃ n, n ≤ k ∧ n ≤ s.length ∧ after = s.drop n ∧ 0 ≤ v ∧ v < 10 ^ n := by
  unfold scanNumber at scanned
  cases s with
  | nil => cases scanned
  | cons c rest =>
    dsimp only at scanned
    split at scanned
    · cases scanned
    · generalize runDef : ((c :: rest).take ((some k).getD (c :: rest).length)).takeWhile
        isDigitChar = run at scanned
      have digits : ∀ d ∈ run, isDigitChar d = true := by
        intro d mem
        rw [← runDef] at mem
        exact List.mem_takeWhile_imp mem
      have short : run.length ≤ ((c :: rest).take k).length := by
        rw [← runDef]
        exact List.IsPrefix.length_le (List.takeWhile_prefix _)
      rw [List.length_take] at short
      unfold digitsValue at scanned
      dsimp only at scanned
      split at scanned
      · cases scanned
      · obtain ⟨low, high⟩ := foldl_digits_lt digits (le_refl 0)
        cases scanned
        refine ⟨run.length, by omega, by omega, rfl, low, ?_⟩
        simpa using high

/-- A fraction reads as fewer nanoseconds than a second holds. -/
theorem scanFraction_lt {s rest : List Char} {nano : Nat}
    (scanned : scanFraction s = .ok (nano, rest)) : nano < 1000000000 := by
  unfold scanFraction at scanned
  split at scanned
  · next digits =>
    rw [Except.bind_eq_ok] at scanned
    obtain ⟨⟨v, after⟩, read, answered⟩ := scanned
    obtain ⟨n, most, within, rfl, low, high⟩ := scanNumber_lt read
    cases answered
    -- the digits read fill the first `n` of nine places
    rw [List.length_drop, show digits.length - (digits.length - n) = n by omega]
    have small : v.toNat < 10 ^ n := by
      have cast : ((10 ^ n : Nat) : Int) = 10 ^ n := by push_cast; rfl
      omega
    calc v.toNat * 10 ^ (9 - n) < 10 ^ n * 10 ^ (9 - n) :=
          Nat.mul_lt_mul_of_pos_right small (by positivity)
      _ = 10 ^ 9 := by rw [← pow_add, Nat.add_sub_cancel' most]
      _ = 1000000000 := by norm_num
  · cases scanned
    omega

/-- An offset in the exact form is a whole number of minutes. -/
theorem exactOffset_emod {s rest : List Char} {offset : Int}
    (read : exactOffset s = .ok (offset, rest)) : offset % 60 = 0 := by
  unfold exactOffset at read
  split at read
  · cases read
  · split at read
    · cases read
      rfl
    · split at read
      · rw [Except.bind_eq_ok] at read
        obtain ⟨⟨h1, h2⟩, -, read⟩ := read
        dsimp only at read
        split at read
        · cases read
        · rw [Except.bind_eq_ok] at read
          obtain ⟨s', -, read⟩ := read
          split at read
          · cases read
          · split at read
            · cases read
              -- hours and minutes, either way of UTC
              split <;> omega
            · split at read <;> cases read
      · cases read

/-- A wall-clock time moved to UTC by a whole number of minutes is valid: its year is checked, and a
leap second stays the last second of its minute. -/
theorem atOffset_valid {year : Int} {month day hour minute second nano : Nat} {offset : Int}
    {t : Timestamp} (small : nano < 1000000000) (whole : offset % 60 = 0)
    (read : atOffset year month day hour minute second nano offset = .ok t) : t.Valid := by
  unfold atOffset at read
  dsimp only at read
  split_ifs at read with outside far leap inside inside' <;> cases read <;> unfold Valid <;>
    dsimp only
  · -- a leap second is the 59th second of its minute, with a second's nanoseconds on top
    exact ⟨by simpa using inside, .inr ⟨by omega, by omega⟩⟩
  · exact ⟨by simpa using inside', .inl (by omega)⟩

/-- Every instant read from RFC 3339 text in the exact form is valid. -/
theorem valid_of_parseStrict {text : String} {t : Timestamp} (read : parseStrict text = .ok t) :
    t.Valid := by
  rw [parseStrict] at read
  -- each stage either refuses the text or passes what it read on to the next
  split at read
  · cases read
  dsimp only at read
  split at read
  · split at read
    · split at read
      · split at read
        · simp only [Except.pure_eq, Except.ok_bind] at read
          split at read
          · rw [Except.bind_eq_ok] at read
            obtain ⟨⟨nano, s₁⟩, scanned, read⟩ := read
            split at read
            · rw [Except.bind_eq_ok] at read
              obtain ⟨⟨offset, s₂⟩, offsetRead, read⟩ := read
              split at read
              · split at read
                · exact atOffset_valid (scanFraction_lt scanned) (exactOffset_emod offsetRead) read
                · cases read
              · cases read
            · cases read
          · cases read
        · cases read
      · cases read
    · cases read
  · cases read

/-- The instant a call carries when it gives none is valid. -/
theorem valid_newYear2024 : newYear2024.Valid := ⟨rfl, .inl (by decide)⟩

end Chaincode.Timestamp
