import SignalSchema.Json.Reader

/-!
# Strings in schemas

The two kinds of strings of the schema language. A plain string ends on its line and knows
escapes. A block string lies between triple quotes; the indentation that its lines share and
the blank lines around it do not belong to its value.
-/

namespace SignalSchema.Sdl

/-- Hexadecimal digits up to a closing brace, as a code point. -/
def readBraced (n : Nat) (seen : Bool) : List Char → Option (Nat × List Char)
  | [] => none
  | c :: rest =>
    if c = '}' then if seen then some (n, rest) else none
    else
      match RawJson.hexValue? c with
      | some d => readBraced (min (16 * n + d) 0x110000) true rest
      | none => none

/-- A unit of a string after a backslash: a code point, or a 16-bit unit in the four-digit
form. -/
def readEscape : List Char → Option (Nat × List Char)
  | 'u' :: '{' :: rest => do
    let (n, rest) ← readBraced 0 false rest
    if (0xD800 ≤ n && n < 0xE000) || 0x10FFFF < n then none else some (n, rest)
  | rest => RawJson.readEscape rest

/-- The units of a plain string after its opening quote, and the rest. The fuel bounds the
number of units. -/
def readPlain : Nat → List Nat → List Char → Option (List Nat × List Char)
  | 0, _, _ => none
  | _ + 1, _, [] => none
  | _ + 1, units, '"' :: rest => some (units.reverse, rest)
  | _ + 1, _, '\n' :: _ => none
  | _ + 1, _, '\r' :: _ => none
  | fuel + 1, units, '\\' :: rest => do
    let (unit, rest) ← readEscape rest
    readPlain fuel (unit :: units) rest
  | fuel + 1, units, c :: rest => readPlain fuel (c.toNat :: units) rest

/-- The characters of a block string after its opening quotes, and the rest. A backslash
before triple quotes makes them part of the string. -/
def readBlock (taken : List Char) : List Char → Option (List Char × List Char)
  | '"' :: '"' :: '"' :: rest => some (taken.reverse, rest)
  | '\\' :: '"' :: '"' :: '"' :: rest => readBlock ('"' :: '"' :: '"' :: taken) rest
  | c :: rest => readBlock (c :: taken) rest
  | [] => none

/-- The lines of a text; a line ends in a line feed, a carriage return or both. -/
def splitLines (line : List Char) : List Char → List (List Char)
  | [] => [line.reverse]
  | '\r' :: '\n' :: rest => line.reverse :: splitLines [] rest
  | '\r' :: rest => line.reverse :: splitLines [] rest
  | '\n' :: rest => line.reverse :: splitLines [] rest
  | c :: rest => splitLines (c :: line) rest

/-- Whether a character indents a line. -/
def isIndent (c : Char) : Bool :=
  c == ' ' || c == '\t'

/-- The indentation that all lines share which hold something else. -/
def commonIndent (lines : List (List Char)) : Nat :=
  ((lines.filter fun l => !l.all isIndent).map fun l => (l.takeWhile isIndent).length).min?.getD 0

/-- The value of a block string: without the shared indentation of all lines but the first,
and without blank lines at both ends. -/
def dedent (cs : List Char) : List Char :=
  let lines :=
    match splitLines [] cs with
    | [] => []
    | first :: rest => first :: rest.map (List.drop (commonIndent rest))
  let isBlank (l : List Char) : Bool := l.all isIndent
  let lines := ((lines.dropWhile isBlank).reverse.dropWhile isBlank).reverse
  ['\n'].intercalate lines

/-- The value of a string after its first quote, and the rest. -/
def readQuoted : List Char → Option (String × List Char)
  | '"' :: '"' :: rest => do
    let (cs, rest) ← readBlock [] rest
    some (String.ofList (dedent cs), rest)
  | '"' :: rest => some ("", rest)
  | rest => do
    let (units, rest) ← readPlain (rest.length + 1) [] rest
    let value ← RawJson.text? units
    some (value, rest)

end SignalSchema.Sdl
