import SignalSchema.Json.Reader
import SignalSchema.Yaml.Scalar.Gap

/-!
# Quoted scalars

Between single quotes a quote is written twice and nothing else is special. Between double
quotes a backslash starts an escape; before a line break it joins the lines without a space.
-/

namespace SignalSchema.Yaml.Quoted

/-- The code point that hexadecimal digits spell. -/
def hexValue? (cs : List Char) : Option Nat := do
  let ds ← cs.mapM RawJson.hexValue?
  some (ds.foldl (fun n d => 16 * n + d) 0)

/-- The character of an escape with `n` hexadecimal digits, and the number of those. -/
def hexEscape? (n : Nat) (cs : List Char) : Option (Char × Nat) := do
  let digits := cs.take n
  let value ← if digits.length = n then hexValue? digits else none
  if (0xD800 ≤ value && value < 0xE000) || 0x10FFFF < value then none
  else some (Char.ofNat value, n)

/-- The character that an escape stands for, and the number of characters after the backslash. -/
def escape? : List Char → Option (Char × Nat)
  | [] => none
  | x :: rest =>
    let control (n : Nat) : Option (Char × Nat) := some (Char.ofNat n, 1)
    match x with
    | '0' => control 0
    | 'a' => control 7
    | 'b' => control 8
    | 't' => control 9
    | '\t' => control 9
    | 'n' => control 10
    | 'v' => control 11
    | 'f' => control 12
    | 'r' => control 13
    | 'e' => control 27
    | ' ' => some (' ', 1)
    | '"' => some ('"', 1)
    | '/' => some ('/', 1)
    | '\\' => some ('\\', 1)
    | 'N' => control 0x85
    | '_' => control 0xA0
    | 'L' => control 0x2028
    | 'P' => control 0x2029
    | 'x' => (hexEscape? 2 rest).map fun (c, n) => (c, n + 1)
    | 'u' => (hexEscape? 4 rest).map fun (c, n) => (c, n + 1)
    | 'U' => (hexEscape? 8 rest).map fun (c, n) => (c, n + 1)
    | _ => none

/-- The mark at both ends. -/
def quote (single : Bool) : Char :=
  if single then '\'' else '"'

/-- Reads on in a word. The result is the word, the gap that an escaped line break after it
opens, and the place after. -/
def readWord (single : Bool) : Nat → List Char → Cursor → Option (List Char × Gap × Cursor)
  | 0, _, _ => none
  | fuel + 1, text, c =>
    match c.rest with
    | [] => some (text, Gap.empty, c)
    | x :: rest =>
      if isBlank x || isBreak x then some (text, Gap.empty, c)
      else if x == quote single then
        if single && c.has 1 '\'' then readWord single fuel (text ++ ['\'']) (c.skip 2)
        else some (text, Gap.empty, c)
      else if !single && x == '\\' then
        if rest.head?.any isBreak then some (text, Gap.escapedBreak, (c.skip 1).skipBreak)
        else do
          let (y, n) ← escape? rest
          readWord single fuel (text ++ [y]) (c.skip (n + 1))
      else readWord single fuel (text ++ [x]) (c.skip 1)

/-- Reads on up to the closing quote. No line inside may look like a line between documents. The
fuel exceeds the number of characters. -/
def read (single : Bool) : Nat → List Char → Cursor → Option (List Char × Cursor)
  | 0, _, _ => none
  | fuel + 1, text, c => do
    if c.atDocumentMark || c.atEnd then none
    else
      let (text, gap, c) ← readWord single (fuel + 1) text c
      if c.has 0 (quote single) then some (text, c.skip 1)
      else
        let (gap, c) ← Gap.read 0 fuel gap c
        read single fuel (text ++ gap.fold) c

end SignalSchema.Yaml.Quoted
