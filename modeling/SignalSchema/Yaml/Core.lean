import SignalSchema.Decimal.Digits
import SignalSchema.Json.Reader
import SignalSchema.Yaml.Value

/-!
# What plain scalars mean

A plain scalar is null, a truth value, an integer or a double if it is written like one, and a
text otherwise. Integers are decimal, hexadecimal, octal or binary. A number with a zero in
front of other digits is a text, as is a double beyond the range.
-/

namespace SignalSchema.Yaml.Core

/-- Whether a text stands for null. -/
def isNull (s : String) : Bool :=
  s == "null" || s == "Null" || s == "NULL" || s == "~"

/-- The truth value that a text stands for. -/
def bool? (s : String) : Option Bool :=
  if s == "true" || s == "True" || s == "TRUE" then some true
  else if s == "false" || s == "False" || s == "FALSE" then some false
  else none

/-- The number that at least one digit of a base spells. -/
def digits? (base : Nat) (cs : List Char) : Option Nat :=
  if cs.isEmpty then none
  else
    cs.foldl (fun n c => do
      let n ← n
      let d ← RawJson.hexValue? c
      if d < base then some (base * n + d) else none) (some 0)

/-- Without a sign in front. -/
def unsigned (cs : List Char) : List Char :=
  match cs with
  | '-' :: rest => rest
  | '+' :: rest => rest
  | cs => cs

/-- Whether a decimal number has a zero in front of other digits. -/
def hasLeadingZero (cs : List Char) : Bool :=
  match unsigned cs with
  | '0' :: d :: rest => (d :: rest).all Char.isDigit
  | _ => false

/-- The number that digits with the mark of their base, if any, spell. -/
def magnitude? (cs : List Char) : Option Nat :=
  match cs with
  | '0' :: 'x' :: rest => digits? 16 rest
  | '0' :: 'o' :: rest => digits? 8 rest
  | '0' :: 'b' :: rest => digits? 2 rest
  | cs => digits? 10 cs

/-- The natural number that a text spells, with or without a plus sign. -/
def nat? (cs : List Char) : Option Nat :=
  if hasLeadingZero cs then none
  else
    match cs with
    | '+' :: rest => magnitude? rest
    | cs => magnitude? cs

/-- The integer that a text spells. -/
def int? (cs : List Char) : Option Int :=
  match cs with
  | '-' :: rest => if hasLeadingZero cs then none else (magnitude? rest).map fun n => -(n : Int)
  | cs => (nat? cs).map Int.ofNat

/-- Whether an integer is a number of 64 bits. -/
def fits (n : Int) : Bool :=
  -0x8000000000000000 ≤ n && n < 0x10000000000000000

/-- Whether an integer is still read as one, of 128 bits, although it does not fit. -/
def isRefused (n : Int) : Bool :=
  !fits n && -0x80000000000000000000000000000000 ≤ n && n < 0x100000000000000000000000000000000

/-- An exponent, which has at least one digit and can have a sign. -/
def exponent? (cs : List Char) : Option Int :=
  match cs with
  | '-' :: rest => (digits? 10 rest).map fun n => -(n : Int)
  | cs => (digits? 10 (unsigned cs)).map Int.ofNat

/-- The double that digits with a point or an exponent spell. There has to be a digit on one
side of the point. -/
def decimal? (negative : Bool) (cs : List Char) : Option Double := do
  let (whole, rest) := cs.span Char.isDigit
  let (fraction, rest) :=
    match rest with
    | '.' :: rest => rest.span Char.isDigit
    | rest => ([], rest)
  let exponent ←
    match rest with
    | [] => some 0
    | 'e' :: rest => exponent? rest
    | 'E' :: rest => exponent? rest
    | _ => none
  if whole.isEmpty && fraction.isEmpty then none
  else
    let digits := Decimal.digitsValue (whole ++ fraction)
    some (Double.ofDecimal negative digits (exponent - fraction.length))

/-- The double that a text spells. -/
def double? (cs : List Char) : Option Double :=
  let infinities := [['.', 'i', 'n', 'f'], ['.', 'I', 'n', 'f'], ['.', 'I', 'N', 'F']]
  let nans := [['.', 'n', 'a', 'n'], ['.', 'N', 'a', 'N'], ['.', 'N', 'A', 'N']]
  let negative := cs.head? == some '-'
  if infinities.contains (unsigned cs) then some (Double.infinity negative)
  else if nans.contains cs then some Double.nan
  else (decimal? negative (unsigned cs)).filter (·.isFinite)

/-- The value of a plain scalar; an integer just beyond 64 bits has none. -/
def plain? (s : String) : Option Value :=
  let cs := s.toList
  if s.isEmpty || isNull s then some .null
  else
    match bool? s with
    | some b => some (.bool b)
    | none =>
      match (int? cs).filter fun n => fits n || isRefused n with
      | some n => if fits n then some (.number (.int n)) else none
      | none =>
        match if hasLeadingZero cs then none else double? cs with
        | some x => some (.number (.double x))
        | none => some (.string s)

/-! ### Tags -/

/-- What comes before the names of the standard tags. -/
def standardTag (name : String) : String :=
  "tag:yaml.org,2002:" ++ name

/-- The name of a tag that starts with an exclamation mark. -/
def tagName? (tag : String) : Option String :=
  match tag.toList with
  | '!' :: '!' :: c :: rest => some (String.ofList (c :: rest))
  | '!' :: rest => some (String.ofList rest)
  | _ => none

/-- The value of a scalar with a tag that is no name. Some standard tags ask for a kind of
value, whatever the style; all others make a text. -/
def standard? (tag : String) (s : String) : Option Value :=
  let cs := s.toList
  if tag == standardTag "bool" then (bool? s).map .bool
  else if tag == standardTag "int" then ((int? cs).filter fits).map fun n => .number (.int n)
  else if tag == standardTag "float" then (double? cs).map fun x => .number (.double x)
  else if tag == standardTag "null" then if isNull s then some .null else none
  else some (.string s)

end SignalSchema.Yaml.Core
