import SignalSchema.Decimal.Double

/-!
# Shortest decimals

The decimal with the fewest digits that rounds to a given double, and among those the one
nearest to it. A double is read back from every decimal inside its rounding interval, whose
ends belong to it when its significand is even. For one digit, two digits and so on, the two
neighbours of the double on the grid of decimals with that many digits are tested: if any
point of the grid lies in the interval, one of these two does.
-/

namespace SignalSchema.Decimal

/-- A positive decimal, `digits * 10 ^ exponent`. -/
structure Scientific where
  digits : Nat
  exponent : Int
  deriving DecidableEq, Repr

/-- The decimals that round to a double: an interval of quotients over one denominator. -/
structure RoundingInterval where
  low : Nat
  value : Nat
  high : Nat
  den : Nat
  /-- Whether both ends belong to the interval. -/
  closed : Bool

/-- The interval of a finite positive double. Below a power of two the gap is half as wide. -/
def roundingInterval (x : Double) : RoundingInterval :=
  let (m, q) := x.significand
  let below := if m = Double.exponentUnit && -1074 < q then 1 else 2
  let (scale, den) := if 0 ≤ q then (Nat.pow 2 q.toNat, 4) else (1, 4 * Nat.pow 2 (-q).toNat)
  { low := (4 * m - below) * scale
    value := 4 * m * scale
    high := (4 * m + 2) * scale
    den := den
    closed := m % 2 == 0 }

/-- The least `j` with `n ≤ 10 ^ j`, for `n` of at least two. -/
def ceilLog10 (n : Nat) : Nat :=
  (Nat.toDigits 10 (n - 1)).length

/-- The greatest `e` with `10 ^ e ≤ num / den`, for positive arguments. -/
def floorLog10 (num den : Nat) : Int :=
  if den ≤ num then ((Nat.toDigits 10 (num / den)).length : Int) - 1
  else -(ceilLog10 ((den + num - 1) / num) : Int)

/-- Whether `d * 10 ^ e` lies in the interval. -/
def RoundingInterval.holds (i : RoundingInterval) (d : Nat) (e : Int) : Bool :=
  let (n, f) :=
    if 0 ≤ e then (d * Nat.pow 10 e.toNat * i.den, 1) else (d * i.den, Nat.pow 10 (-e).toNat)
  if i.closed then i.low * f ≤ n && n ≤ i.high * f else i.low * f < n && n < i.high * f

/-- The better of the two neighbours of the value on the grid of multiples of `10 ^ e`. -/
def RoundingInterval.onGrid (i : RoundingInterval) (e : Int) : Option Nat :=
  let (num, den) :=
    if 0 ≤ e then (i.value, i.den * Nat.pow 10 e.toNat)
    else (i.value * Nat.pow 10 (-e).toNat, i.den)
  let d := num / den
  let nearest := Double.divRoundEven num den
  if i.holds nearest e then some nearest
  else if i.holds d e then some d
  else if i.holds (d + 1) e then some (d + 1)
  else none

/-- Drops zeros at the end of the digits, at most `fuel` of them. -/
def dropZeros : Nat → Scientific → Scientific
  | 0, s => s
  | fuel + 1, s =>
    if s.digits ≠ 0 && s.digits % 10 = 0 then dropZeros fuel ⟨s.digits / 10, s.exponent + 1⟩ else s

/-- The shortest decimal that reads back as the finite positive double `x`. -/
def shortest (x : Double) : Scientific :=
  let i := roundingInterval x
  let top := floorLog10 i.value i.den
  let candidates := (List.range 17).filterMap fun (n : Nat) =>
    let e := top - (n : Int)
    (i.onGrid e).map fun d => Scientific.mk d e
  match candidates with
  | s :: _ => dropZeros 18 s
  | [] => ⟨0, 0⟩

end SignalSchema.Decimal
