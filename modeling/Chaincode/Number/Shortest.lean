/-!
# Shortest decimal text of a double

A finite double is `m · 2^q` for natural `m` and integer `q`. Every real number in the interval
around it that rounds to it reads back as it; the ends of the interval belong to it exactly when
`m` is even, since a tie is rounded to the even neighbour. The shortest text is found on decimal
grids of one, two, … seventeen significant digits: on each grid the value lies between two
neighbours, and the first grid on which a neighbour falls inside the interval gives the digits.
When both do, the nearer one wins, and an exact tie goes to the even one. All comparisons are in
exact natural-number arithmetic.

`DoubleFormat` then decides how the digits are written: positionally for moderate exponents,
otherwise as a mantissa and a signed exponent.
-/

namespace Chaincode.Number

/-- Compares `c · 10^k` with `x · 2^s` exactly. -/
def comparePowers (c : Nat) (k : Int) (x : Nat) (s : Int) : Ordering :=
  compare (c * Nat.pow 10 k.toNat * Nat.pow 2 (-s).toNat)
    (x * Nat.pow 2 s.toNat * Nat.pow 10 (-k).toNat)

/-- The largest `e` with `10^e ≤ m · 2^q`, for positive `m`, found from an estimate. -/
def decimalExponent (m : Nat) (q : Int) : Int :=
  let estimate : Int := ((Nat.log2 m : Int) + q) * 30103 / 100000
  let down := (List.range 4).foldl (fun e _ =>
    if comparePowers 1 e m q = .gt then e - 1 else e) (estimate + 2)
  (List.range 4).foldl (fun e _ =>
    if comparePowers 1 (e + 1) m q = .gt then e else e + 1) down

/-- The shortest digits of `m · 2^q` (positive `m`) whose value reads back, as a natural number
`c` and an exponent `k` with value `c · 10^k`. `lowerHalf` says that the gap to the next smaller
double is half the gap to the next larger one. -/
def shortestDigits (m : Nat) (q : Int) (lowerHalf : Bool) : Nat × Int :=
  let s := q - 2
  let low := if lowerHalf then 4 * m - 1 else 4 * m - 2
  let high := 4 * m + 2
  let closed := m % 2 = 0
  let inside (c : Nat) (k : Int) : Bool :=
    let aboveLow := match comparePowers c k low s with
      | .gt => true
      | .eq => closed
      | .lt => false
    let belowHigh := match comparePowers c k high s with
      | .lt => true
      | .eq => closed
      | .gt => false
    aboveLow && belowHigh
  let e10 := decimalExponent m q
  let attempt (n : Nat) : Option (Nat × Int) :=
    let k := e10 - n + 1
    let num := m * Nat.pow 2 q.toNat * Nat.pow 10 (-k).toNat
    let den := Nat.pow 2 (-q).toNat * Nat.pow 10 k.toNat
    let lo := num / den
    match inside lo k, inside (lo + 1) k with
    | true, true =>
      match comparePowers (2 * lo + 1) k (8 * m) s with
      | .lt => some (lo + 1, k)
      | .gt => some (lo, k)
      | .eq => some (if lo % 2 = 0 then lo else lo + 1, k)
    | true, false => some (lo, k)
    | false, true => some (lo + 1, k)
    | false, false => none
  let found := (List.range 17).foldl (fun acc n =>
    match acc with
    | some r => some r
    | none => attempt (n + 1)) none
  found.getD (m, q)

/-- Drops trailing zero digits, raising the exponent. -/
def stripZeros (c : Nat) (k : Int) : Nat × Int :=
  (List.range 20).foldl (fun (c, k) _ =>
    if c ≠ 0 ∧ c % 10 = 0 then (c / 10, k + 1) else (c, k)) (c, k)

/-- How shortest digits are written. -/
structure DoubleFormat where
  /-- The least and greatest exponent of the leading digit written positionally. -/
  positionalFrom : Int
  positionalTo : Int
  /-- Text after a positional integer, such as `.0`. -/
  integralSuffix : String
  /-- Whether a non-negative exponent carries a `+`. -/
  plusSign : Bool

/-- The written form of doubles in reader messages: positionally for leading-digit exponents from
-5 to 15 with `.0` after an integer, otherwise `d.ddde+XX`. -/
def DoubleFormat.messages : DoubleFormat := ⟨-5, 15, ".0", true⟩

/-- Writes `c · 10^k` (no trailing zeros in `c`) in a format. -/
def DoubleFormat.write (f : DoubleFormat) (negative : Bool) (c : Nat) (k : Int) : String :=
  let digits := Nat.toDigits 10 c
  let n := digits.length
  let e := (n : Int) + k - 1
  let sign := if negative then "-" else ""
  if f.positionalFrom ≤ e ∧ e ≤ f.positionalTo then
    if k ≥ 0 then
      sign ++ String.ofList (digits ++ List.replicate k.toNat '0') ++ f.integralSuffix
    else if e ≥ 0 then
      let whole := (e + 1).toNat
      sign ++ String.ofList (digits.take whole) ++ "." ++ String.ofList (digits.drop whole)
    else
      sign ++ "0." ++ String.ofList (List.replicate ((-e).toNat - 1) '0' ++ digits)
  else
    let mantissa := match digits with
      | d :: [] => String.ofList [d]
      | d :: rest => String.ofList (d :: '.' :: rest)
      | [] => "0"
    let expSign := if e < 0 then "-" else if f.plusSign then "+" else ""
    sign ++ mantissa ++ "e" ++ expSign ++ toString e.natAbs

/-- The shortest text of a double that reads back as it. -/
def DoubleFormat.show (f : DoubleFormat) (x : Float) : String :=
  let bits : Nat := x.toBits.toNat
  let negative : Bool := bits / Nat.pow 2 63 = 1
  let biased : Nat := bits / Nat.pow 2 52 % 2048
  let fraction : Nat := bits % Nat.pow 2 52
  if biased = 2047 then
    if fraction = 0 then (if negative then "-inf" else "inf") else "NaN"
  else if biased = 0 ∧ fraction = 0 then
    (if negative then "-" else "") ++ "0" ++ f.integralSuffix
  else
    let m : Nat := if biased = 0 then fraction else fraction + Nat.pow 2 52
    let q : Int := if biased = 0 then -1074 else (biased : Int) - 1075
    let lowerHalf : Bool := fraction = 0 && biased > 1
    let (c, k) := shortestDigits m q lowerHalf
    let (c, k) := stripZeros c k
    f.write negative c k

end Chaincode.Number
