import SignalSchema.Decimal.Digits
import SignalSchema.Json.Basic

/-!
# Reading JSON

A JSON text is read in two steps. `RawJson.parse?` keeps what is written: the digits of
numbers, the escapes of strings and repeated keys. `RawJson.value?` then gives it a value,
which can fail for numbers beyond the range of doubles, unpaired surrogates and nesting
that is too deep. Parts of a text that nobody looks at need only the first step.
-/

namespace SignalSchema

/-- A number as written: sign, digits before and after the point, and the exponent with its
sign. -/
structure NumberText where
  negative : Bool
  whole : List Char
  fraction : Option (List Char)
  exponent : Option (Bool × List Char)

/-- A JSON text as written. Strings are lists of code points, in which an escape stands for
one 16-bit unit. -/
inductive RawJson where
  | null
  | bool (value : Bool)
  | number (text : NumberText)
  | string (units : List Nat)
  | array (items : List RawJson)
  | object (fields : List (List Nat × RawJson))

namespace RawJson

/-- Drops the white space of JSON: space, tab, line feed and carriage return. -/
def skipSpace (cs : List Char) : List Char :=
  cs.dropWhile fun c => c == ' ' || c == '\t' || c == '\n' || c == '\r'

/-- The value of a hexadecimal digit. -/
def hexValue? (c : Char) : Option Nat :=
  if c.isDigit then some (c.toNat - '0'.toNat)
  else if 'a' ≤ c && c ≤ 'f' then some (c.toNat - 'a'.toNat + 10)
  else if 'A' ≤ c && c ≤ 'F' then some (c.toNat - 'A'.toNat + 10)
  else none

/-- The unit that an escape stands for, without its backslash, and the rest. -/
def readEscape : List Char → Option (Nat × List Char)
  | '"' :: r => some (0x22, r)
  | '\\' :: r => some (0x5C, r)
  | '/' :: r => some (0x2F, r)
  | 'b' :: r => some (8, r)
  | 'f' :: r => some (12, r)
  | 'n' :: r => some (10, r)
  | 'r' :: r => some (13, r)
  | 't' :: r => some (9, r)
  | 'u' :: a :: b :: c :: d :: r => do
    let a ← hexValue? a
    let b ← hexValue? b
    let c ← hexValue? c
    let d ← hexValue? d
    some (((a * 16 + b) * 16 + c) * 16 + d, r)
  | _ => none

/-- The units of a string after its opening quote, and the rest after the closing one. -/
def readString : Nat → List Nat → List Char → Option (List Nat × List Char)
  | 0, _, _ => none
  | _ + 1, _, [] => none
  | _ + 1, units, '"' :: r => some (units.reverse, r)
  | fuel + 1, units, '\\' :: r => do
    let (unit, r) ← readEscape r
    readString fuel (unit :: units) r
  | fuel + 1, units, c :: r => if c.toNat < 0x20 then none else readString fuel (c.toNat :: units) r

/-- The digits at the front, of which there is at least one, and the rest. -/
def readDigits (cs : List Char) : Option (List Char × List Char) :=
  let (digits, rest) := cs.span Char.isDigit
  if digits.isEmpty then none else some (digits, rest)

/-- The exponent of a number, if one follows. -/
def readExponent (cs : List Char) : Option (Option (Bool × List Char) × List Char) :=
  match cs with
  | e :: r =>
    if e == 'e' || e == 'E' then
      let (negative, r) :=
        match r with
        | '+' :: r => (false, r)
        | '-' :: r => (true, r)
        | r => (false, r)
      (readDigits r).map fun (digits, r) => (some (negative, digits), r)
    else some (none, cs)
  | [] => some (none, [])

/-- A number without its sign: no zero before other digits, and digits after a point. -/
def readNumber (negative : Bool) (cs : List Char) : Option (NumberText × List Char) := do
  let (whole, r) ← readDigits cs
  if whole.head? = some '0' && whole.length ≠ 1 then none
  else
    let (fraction, r) ←
      match r with
      | '.' :: r => (readDigits r).map fun (digits, r) => (some digits, r)
      | r => some (none, r)
    let (exponent, r) ← readExponent r
    some (⟨negative, whole, fraction, exponent⟩, r)

/-- Takes the given characters off the front. -/
def expect (word : List Char) (cs : List Char) : Option (List Char) :=
  if word.isPrefixOf cs then some (cs.drop word.length) else none

mutual
/-- A value at the front of the characters, and the rest. -/
def readValue : Nat → List Char → Option (RawJson × List Char)
  | 0, _ => none
  | fuel + 1, cs =>
    match skipSpace cs with
    | 'n' :: r => (expect ['u', 'l', 'l'] r).map fun r => (.null, r)
    | 't' :: r => (expect ['r', 'u', 'e'] r).map fun r => (.bool true, r)
    | 'f' :: r => (expect ['a', 'l', 's', 'e'] r).map fun r => (.bool false, r)
    | '"' :: r => (readString (r.length + 1) [] r).map fun (units, r) => (.string units, r)
    | '-' :: r => (readNumber true r).map fun (n, r) => (.number n, r)
    | '[' :: r =>
      match skipSpace r with
      | ']' :: r => some (.array [], r)
      | r => (readItems fuel r).map fun (items, r) => (.array items, r)
    | '{' :: r =>
      match skipSpace r with
      | '}' :: r => some (.object [], r)
      | r => (readFields fuel r).map fun (fields, r) => (.object fields, r)
    | r => (readNumber false r).map fun (n, r) => (.number n, r)
/-- One or more items up to the closing bracket. -/
def readItems : Nat → List Char → Option (List RawJson × List Char)
  | 0, _ => none
  | fuel + 1, cs => do
    let (v, r) ← readValue fuel cs
    match skipSpace r with
    | ',' :: r => do
      let (rest, r) ← readItems fuel r
      some (v :: rest, r)
    | ']' :: r => some ([v], r)
    | _ => none
/-- One or more fields up to the closing brace. -/
def readFields : Nat → List Char → Option (List (List Nat × RawJson) × List Char)
  | 0, _ => none
  | fuel + 1, cs =>
    match skipSpace cs with
    | '"' :: r => do
      let (key, r) ← readString (r.length + 1) [] r
      match skipSpace r with
      | ':' :: r => do
        let (v, r) ← readValue fuel r
        match skipSpace r with
        | ',' :: r => do
          let (rest, r) ← readFields fuel r
          some ((key, v) :: rest, r)
        | '}' :: r => some ([(key, v)], r)
        | _ => none
      | _ => none
    | _ => none
end

/-- Reads a whole text as one value. -/
def parse? (s : String) : Option RawJson := do
  let cs := s.toList
  let (v, r) ← readValue (2 * cs.length + 2) cs
  if (skipSpace r).isEmpty then some v else none

/-- The text that a string's units spell; a surrogate has to be part of a pair. -/
def decode? : List Nat → Option (List Char)
  | [] => some []
  | u :: rest =>
    if 0xD800 ≤ u && u < 0xDC00 then
      match rest with
      | v :: rest =>
        if 0xDC00 ≤ v && v < 0xE000 then
          (decode? rest).map (Char.ofNat (0x10000 + (u - 0xD800) * 0x400 + (v - 0xDC00)) :: ·)
        else none
      | [] => none
    else if 0xDC00 ≤ u && u < 0xE000 then none
    else (decode? rest).map (Char.ofNat u :: ·)

/-- A string's units as text. -/
def text? (units : List Nat) : Option String :=
  (decode? units).map String.ofList

end RawJson

namespace NumberText

/-- Appends digits to a 64-bit significand as long as it does not overflow; the second part
is what was not taken. -/
def accumulate (significand : Nat) : List Char → Nat × List Char
  | [] => (significand, [])
  | c :: rest =>
    let next := 10 * significand + (c.toNat - '0'.toNat)
    if 0x10000000000000000 ≤ next then (significand, c :: rest) else accumulate next rest

/-- Multiplies a double by a power of ten in steps of at most 308 places, each rounded. Too
large a result is refused. -/
def scale (x : Double) (exponent : Int) : Option Double :=
  if x.isZero then some x
  else if 0 ≤ exponent then
    if 308 < exponent then none
    else
      let y := x.mul (Double.ofDecimal false 1 exponent)
      if y.isFinite then some y else none
  else if -308 ≤ exponent then some (x.div (Double.ofDecimal false 1 (-exponent)))
  else
    let y := x.div (Double.ofDecimal false 1 308)
    if -616 ≤ exponent then
      if y.isZero then some y else some (y.div (Double.ofDecimal false 1 (-exponent - 308)))
    else some (Double.zero false)

/-- The double of a number that is not a 64-bit integer: a significand of 64 bits is scaled
by the exponent that remains. -/
def double? (n : NumberText) : Option Double := do
  let (significand, dropped) := accumulate 0 n.whole
  let (significand, rest) := accumulate significand (n.fraction.getD [])
  let taken := (n.fraction.getD []).length - rest.length
  let written : Int :=
    match n.exponent with
    | none => 0
    | some (negative, digits) =>
      let e : Int := Decimal.digitsValue digits
      if negative then -e else e
  let exponent := (dropped.length : Int) - taken + written
  let x ← scale (Double.ofRatio false significand 1) exponent
  some (if n.negative then x.negate else x)

/-- The value of a number: an integer when it is written as one and fits in 64 bits, except
for `-0`. -/
def value? (n : NumberText) : Option Number :=
  let whole := Decimal.digitsValue n.whole
  if n.fraction.isNone && n.exponent.isNone then
    if !n.negative && whole < 0x10000000000000000 then some (.int whole)
    else if n.negative && 0 < whole && whole ≤ 0x8000000000000000 then some (.int (-whole))
    else n.double?.map .double
  else n.double?.map .double

end NumberText

namespace RawJson

mutual
/-- The value of a text with at most `depth` levels of brackets. A repeated key keeps its
first place and takes its last value. -/
def valueAt? (depth : Nat) : RawJson → Option Json
  | .null => some .null
  | .bool b => some (.bool b)
  | .number n => n.value?.map .number
  | .string units => (text? units).map .string
  | .array items =>
    if depth = 0 then none else (itemsAt? (depth - 1) items).map .array
  | .object fields =>
    if depth = 0 then none else (fieldsAt? (depth - 1) fields).map Json.objectOf
/-- The values of the items. -/
def itemsAt? (depth : Nat) : List RawJson → Option (List Json)
  | [] => some []
  | v :: rest => do
    let v ← v.valueAt? depth
    let rest ← itemsAt? depth rest
    some (v :: rest)
/-- The keys and values of the fields. -/
def fieldsAt? (depth : Nat) : List (List Nat × RawJson) → Option (List (String × Json))
  | [] => some []
  | (key, v) :: rest => do
    let key ← text? key
    let v ← v.valueAt? depth
    let rest ← fieldsAt? depth rest
    some ((key, v) :: rest)
end

/-- The levels of brackets that a text may have. -/
def depthLimit : Nat := 127

/-- The value of a text. -/
def value? (raw : RawJson) : Option Json :=
  raw.valueAt? depthLimit

end RawJson

/-- Reads a JSON text. -/
def Json.parse? (s : String) : Option Json :=
  (RawJson.parse? s).bind RawJson.value?

end SignalSchema
