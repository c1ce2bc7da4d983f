/-!
# Doubles

IEEE 754 double-precision numbers by their bits, with exact conversions: a finite double is
an integer times a power of two, and `Double.ofRatio` is the double nearest to a quotient
of natural numbers, a tie going to the even significand.
-/

namespace SignalSchema

/-- A double-precision number, given by its bits. -/
structure Double where
  bits : UInt64
  deriving DecidableEq, Repr

namespace Double

/-- The place value of the sign bit. -/
def signBit : Nat := 0x8000000000000000

/-- The place value of the lowest bit of the exponent, above the 52 bits of the fraction. -/
def exponentUnit : Nat := 0x10000000000000

/-- The bits without the sign. -/
def unsignedBits (x : Double) : Nat :=
  x.bits.toNat % signBit

/-- Whether the sign bit is set. -/
def isNegative (x : Double) : Bool :=
  signBit ≤ x.bits.toNat

/-- The bits, less the sign, of infinity. -/
def infinityBits : Nat := 0x7FF0000000000000

/-- Whether a double is neither infinite nor NaN. -/
def isFinite (x : Double) : Bool :=
  x.unsignedBits < infinityBits

/-- Whether a double is not a number. -/
def isNaN (x : Double) : Bool :=
  infinityBits < x.unsignedBits

/-- Whether a double is zero of either sign. -/
def isZero (x : Double) : Bool :=
  x.unsignedBits == 0

/-- The double with the given sign and remaining bits. -/
def ofParts (negative : Bool) (unsigned : Nat) : Double :=
  ⟨UInt64.ofNat ((if negative then signBit else 0) + unsigned)⟩

/-- Zero with a sign. -/
def zero (negative : Bool) : Double :=
  ofParts negative 0

/-- Infinity with a sign. -/
def infinity (negative : Bool) : Double :=
  ofParts negative infinityBits

/-- The quiet NaN. -/
def nan : Double :=
  ofParts false 0x7FF8000000000000

/-- The double of opposite sign. -/
def negate (x : Double) : Double :=
  ofParts (!x.isNegative) x.unsignedBits

/-- The significand `m` and exponent `q` with absolute value `m * 2 ^ q`, for finite doubles. -/
def significand (x : Double) : Nat × Int :=
  let exponent : Nat := x.unsignedBits / exponentUnit
  let fraction : Nat := x.unsignedBits % exponentUnit
  if exponent = 0 then (fraction, -1074) else (fraction + exponentUnit, (exponent : Int) - 1075)

/-- The absolute value of a finite double as numerator and denominator. -/
def toRatio (x : Double) : Nat × Nat :=
  let (m, q) := x.significand
  if 0 ≤ q then (m * Nat.pow 2 q.toNat, 1) else (m, Nat.pow 2 (-q).toNat)

/-- The quotient rounded to a natural number, a half to the even neighbour. -/
def divRoundEven (num den : Nat) : Nat :=
  let d := num / den
  let r := num % den
  if den < 2 * r || (2 * r == den && d % 2 == 1) then d + 1 else d

/-- The greatest `e` with `2 ^ e ≤ num / den`, for positive arguments. -/
def floorLog2 (num den : Nat) : Int :=
  let k : Int := (num.log2 : Int) - (den.log2 : Int)
  let atLeast := if 0 ≤ k then den * Nat.pow 2 k.toNat ≤ num else den ≤ num * Nat.pow 2 (-k).toNat
  if atLeast then k else k - 1

/-- The double nearest to `num / den`, infinity when the quotient is too large for any. -/
def ofRatio (negative : Bool) (num den : Nat) : Double :=
  if num = 0 then zero negative
  else
    let q : Int := max (floorLog2 num den - 52) (-1074)
    let n :=
      if 0 ≤ q then divRoundEven num (den * Nat.pow 2 q.toNat)
      else divRoundEven (num * Nat.pow 2 (-q).toNat) den
    let unsigned := (q + 1074).toNat * exponentUnit + n
    ofParts negative (min unsigned infinityBits)

/-- The double nearest to an integer. -/
def ofInt (n : Int) : Double :=
  ofRatio (n < 0) n.natAbs 1

/-- The double nearest to `digits * 10 ^ exponent`. -/
def ofDecimal (negative : Bool) (digits : Nat) (exponent : Int) : Double :=
  let magnitude := (digits.log2 : Int) * 3 / 10 + exponent
  if digits = 0 || magnitude < -400 then zero negative
  else if 400 < magnitude then infinity negative
  else if 0 ≤ exponent then ofRatio negative (digits * Nat.pow 10 exponent.toNat) 1
  else ofRatio negative digits (Nat.pow 10 (-exponent).toNat)

/-- The product of two finite doubles, rounded once. -/
def mul (x y : Double) : Double :=
  let (a, b) := x.toRatio
  let (c, d) := y.toRatio
  ofRatio (x.isNegative != y.isNegative) (a * c) (b * d)

/-- The quotient of two finite doubles, the second not zero, rounded once. -/
def div (x y : Double) : Double :=
  let (a, b) := x.toRatio
  let (c, d) := y.toRatio
  ofRatio (x.isNegative != y.isNegative) (a * d) (b * c)

/-- The sixteen hexadecimal digits of the bits. -/
def hexBits (x : Double) : String :=
  let digits := Nat.toDigits 16 x.bits.toNat
  String.ofList (List.replicate (16 - digits.length) '0' ++ digits)

end Double

end SignalSchema
