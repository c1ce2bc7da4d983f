import SignalSchema.Decimal.Layout
import SignalSchema.Yaml.Core
import SignalSchema.Yaml.Cursor

/-!
# How scalars are written

A text is written plain if it then reads back as itself, between single quotes if it would
otherwise be another value or a part of the notation, and between double quotes if it has
characters that are not printed. A text of several lines is written as a literal block.
-/

namespace SignalSchema.Yaml.Written

/-- The characters that are written as they are. -/
def isPrinted (c : Char) : Bool :=
  let n := c.toNat
  n == 0xA || (0x20 ≤ n && n ≤ 0x7E) || (0xA0 ≤ n && n ≤ 0xD7FF) ||
    (0xE000 ≤ n && n ≤ 0xFFFD && n ≠ 0xFEFF)

/-- Whether nothing, a blank or a line break comes first. -/
def startsApart (cs : List Char) : Bool :=
  cs.head?.all fun c => isBlank c || isBreak c

/-- Whether marks after the first character make a text part of the notation: a colon before
something apart, or a comment sign after it. -/
def hasInnerMark (apart : Bool) : List Char → Bool
  | [] => false
  | c :: rest =>
    (c == ':' && startsApart rest) || (c == '#' && apart) || hasInnerMark (startsApart [c]) rest

/-- Whether the marks in a text make it part of the notation. -/
def hasMark : List Char → Bool
  | [] => false
  | c :: rest =>
    [['-', '-', '-'], ['.', '.', '.']].contains ((c :: rest).take 3) ||
      isMark c || (['?', ':', '-'].contains c && startsApart rest) ||
      hasInnerMark (startsApart [c]) rest

/-- Whether a character that satisfies `p` comes directly before one that satisfies `q`. -/
def hasPair (p q : Char → Bool) : List Char → Bool
  | c :: d :: rest => (p c && q d) || hasPair p q (d :: rest)
  | _ => false

/-- Whether a text can only be written between double quotes. -/
def needsEscapes (cs : List Char) : Bool :=
  cs.any (!isPrinted ·) || hasPair (· == ' ') isBreak cs

/-- Whether a text can be written between single quotes. -/
def allowsSingle (cs : List Char) : Bool :=
  !needsEscapes cs && !hasPair isBreak (· == ' ') cs

/-- Whether a text can be written as a block. -/
def allowsBlock (cs : List Char) : Bool :=
  !cs.isEmpty && !needsEscapes cs && cs.getLast? != some ' '

/-- Whether a text can be written without quotes. -/
def allowsPlain (cs : List Char) : Bool :=
  allowsSingle cs && !cs.any isBreak && cs.head? != some ' ' && cs.getLast? != some ' ' &&
    !hasMark cs

/-- A hexadecimal number with at least `width` digits. -/
def hex (width n : Nat) : List Char :=
  let digits := (Nat.toDigits 16 n).map Char.toUpper
  List.replicate (width - digits.length) '0' ++ digits

/-- What follows the backslash in the escape of a character. -/
def escapeCode (c : Char) : List Char :=
  match c.toNat with
  | 0 => ['0']
  | 7 => ['a']
  | 8 => ['b']
  | 9 => ['t']
  | 10 => ['n']
  | 11 => ['v']
  | 12 => ['f']
  | 13 => ['r']
  | 27 => ['e']
  | 0x22 => ['"']
  | 0x5C => ['\\']
  | 0x85 => ['N']
  | 0x2028 => ['L']
  | 0x2029 => ['P']
  | n =>
    if n ≤ 0xFF then 'x' :: hex 2 n
    else if n ≤ 0xFFFF then 'u' :: hex 4 n
    else 'U' :: hex 8 n

/-- A text between single quotes. -/
def single (cs : List Char) : List Char :=
  '\'' :: (cs.flatMap fun c => if c == '\'' then ['\'', '\''] else [c]) ++ ['\'']

/-- A text between double quotes. -/
def double (cs : List Char) : List Char :=
  let escape (c : Char) : List Char :=
    if !isPrinted c || isBreak c || c == '"' || c == '\\' then '\\' :: escapeCode c else [c]
  '"' :: cs.flatMap escape ++ ['"']

/-- The parts of a text between line feeds. -/
def lines (line : List Char) : List Char → List (List Char)
  | [] => [line.reverse]
  | '\n' :: rest => line.reverse :: lines [] rest
  | c :: rest => lines (c :: line) rest

/-- The header of a literal block: its indentation if the text does not show it, and what
becomes of the line breaks at its end. -/
def blockHeader (cs : List Char) : List Char :=
  let indentation := if cs.head?.any (fun c => c == ' ' || isBreak c) then ['2'] else []
  let chomping :=
    match cs.reverse with
    | [] => ['-']
    | [c] => if isBreak c then ['+'] else ['-']
    | c :: d :: _ => if !isBreak c then ['-'] else if isBreak d then ['+'] else []
  '|' :: (indentation ++ chomping)

/-- The lines of a literal block; empty ones are not indented. -/
def blockLines (pad : List Char) (cs : List Char) : List (List Char) :=
  let parts := lines [] cs
  let parts := if cs.getLast? == some '\n' then parts.dropLast else parts
  parts.map fun part => if part.isEmpty then [] else pad ++ part

/-- Whether a text would be read as another value without quotes. -/
def isAmbiguous (s : String) : Bool :=
  Core.hasLeadingZero s.toList ||
    match Core.plain? s with
    | some (.string _) => false
    | _ => true

/-- A text as written at the indentation `pad`: what stands on the current line, and the lines
after it. -/
def text (pad : List Char) (s : String) : List Char × List (List Char) :=
  let cs := s.toList
  if cs.contains '\n' then
    if allowsBlock cs then (blockHeader cs, blockLines pad cs) else (double cs, [])
  else if !isAmbiguous s && allowsPlain cs then (cs, [])
  else if allowsSingle cs then (single cs, [])
  else (double cs, [])

/-- A number as written. -/
def number : Number → String
  | .int n => toString n
  | .double x =>
    if x.isNaN then ".nan"
    else if !x.isFinite then if x.isNegative then "-.inf" else ".inf"
    else Decimal.Layout.key.write x

end SignalSchema.Yaml.Written
