import SignalSchema.Decimal.Shortest

/-!
# Number formats

How the shortest digits of a double are laid out as text. A format says which decimal
exponents are written with a point in place, whether a number without fraction ends in
`.0`, and whether a positive exponent carries its sign.
-/

namespace SignalSchema.Decimal

/-- A way of writing finite doubles. -/
structure Layout where
  /-- The decimal exponents written in positional notation, from the first to the second;
  all of them when absent. -/
  positional : Option (Int × Int)
  /-- Whether `.0` follows a number without fraction. -/
  pointZero : Bool
  /-- Whether a positive exponent is written with a plus sign. -/
  plusSign : Bool

/-- Numbers in JSON texts: `100.0`, `0.00001`, `1e+16`, `1.5e-7`. -/
def Layout.json : Layout := ⟨some (-5, 15), true, true⟩

/-- Numbers as keys of a layer: like those of JSON texts, but `1e16`. -/
def Layout.key : Layout := ⟨some (-5, 15), true, false⟩

/-- Bounds of a range: never an exponent, and no `.0`. -/
def Layout.bound : Layout := ⟨none, false, false⟩

/-- Digits with the point after the first `point` of them, filled up with zeros. -/
def positionalText (pointZero : Bool) (digits : List Char) (point : Int) : List Char :=
  if point ≤ 0 then
    '0' :: '.' :: (List.replicate (-point).toNat '0' ++ digits)
  else
    let n := point.toNat
    if digits.length ≤ n then
      digits ++ List.replicate (n - digits.length) '0' ++ (if pointZero then ['.', '0'] else [])
    else digits.take n ++ '.' :: digits.drop n

/-- One digit, the others behind a point, and the exponent. -/
def exponentText (plusSign : Bool) (digits : List Char) (exponent : Int) : List Char :=
  let mantissa :=
    match digits with
    | [] => []
    | [d] => [d]
    | d :: rest => d :: '.' :: rest
  let sign := if exponent < 0 then ['-'] else if plusSign then ['+'] else []
  mantissa ++ 'e' :: (sign ++ Nat.toDigits 10 exponent.natAbs)

/-- A finite double in the given format. -/
def Layout.write (layout : Layout) (x : Double) : String :=
  let sign := if x.isNegative then ['-'] else []
  let body :=
    if x.isZero then if layout.pointZero then ['0', '.', '0'] else ['0']
    else
      let s := shortest (Double.ofParts false x.unsignedBits)
      let digits := Nat.toDigits 10 s.digits
      let exponent := s.exponent + digits.length - 1
      let positional :=
        match layout.positional with
        | none => true
        | some (least, greatest) => least ≤ exponent && exponent ≤ greatest
      if positional then positionalText layout.pointZero digits (exponent + 1)
      else exponentText layout.plusSign digits exponent
  String.ofList (sign ++ body)

end SignalSchema.Decimal
