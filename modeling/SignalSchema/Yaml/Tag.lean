import SignalSchema.Json.Reader
import SignalSchema.Yaml.Cursor

/-!
# Tags and directives

A tag is written as a handle, which a directive may stand for, and a rest. Characters outside
of the alphabet of tags are escaped byte by byte.
-/

namespace SignalSchema.Yaml.Tag

/-- The characters of a tag that stand for themselves. Commas and brackets are among them only
where the end of the tag is marked. -/
def isTagChar (bracketed : Bool) (c : Char) : Bool :=
  isNameChar c ||
    [';', '/', '?', ':', '@', '&', '=', '+', '$', '.', '!', '~', '*', '\'', '(', ')'].contains c ||
    (bracketed && [',', '[', ']'].contains c)

/-- The byte of a percent escape. -/
def escapedByte? : List Char → Option Nat
  | '%' :: a :: b :: _ => do
    let a ← RawJson.hexValue? a
    let b ← RawJson.hexValue? b
    some (16 * a + b)
  | _ => none

/-- The number of bytes after a first byte, and its part of the code point. -/
def leadingByte? (n : Nat) : Option (Nat × Nat) :=
  if n < 0x80 then some (0, n)
  else if 0xC0 ≤ n && n < 0xE0 then some (1, n - 0xC0)
  else if 0xE0 ≤ n && n < 0xF0 then some (2, n - 0xE0)
  else if 0xF0 ≤ n && n < 0xF8 then some (3, n - 0xF0)
  else none

/-- The code point of `n` more escaped bytes. -/
def followingBytes? : Nat → Nat → List Char → Option Nat
  | 0, value, _ => some value
  | n + 1, value, cs => do
    let byte ← escapedByte? cs
    if 0x80 ≤ byte && byte < 0xC0 then followingBytes? n (64 * value + (byte - 0x80)) (cs.drop 3)
    else none

/-- Reads on in the text of a tag. The fuel exceeds the number of characters. -/
def readText (bracketed : Bool) : Nat → List Char → Cursor → Option (List Char × Cursor)
  | 0, _, _ => none
  | fuel + 1, text, c =>
    match c.peek? with
    | none => some (text, c)
    | some x =>
      if x == '%' then do
        let (n, value) ← leadingByte? (← escapedByte? c.rest)
        let value ← followingBytes? n value (c.rest.drop 3)
        readText bracketed fuel (text ++ [Char.ofNat value]) (c.skip (3 * (n + 1)))
      else if isTagChar bracketed x then readText bracketed fuel (text ++ [x]) (c.skip 1)
      else some (text, c)

/-- A handle: an exclamation mark, or a name between two of them. Without the second one the
name is no handle but part of the tag. -/
def readHandle (c : Cursor) : Option (List Char × Cursor) :=
  if c.has 0 '!' then
    let name := (c.rest.drop 1).takeWhile isNameChar
    let after := c.skip (name.length + 1)
    if after.has 0 '!' then some ('!' :: name ++ ['!'], after.skip 1) else some ('!' :: name, after)
  else none

/-- A tag as handle and rest, and the place after. In angle brackets a tag is written out in
full, and its handle is empty. A single exclamation mark is a tag of its own. -/
def read (fuel : Nat) (c : Cursor) : Option (List Char × List Char × Cursor) := do
  if c.has 1 '<' then
    let (text, c) ← readText true fuel [] (c.skip 2)
    if !text.isEmpty && c.has 0 '>' then some ([], text, c.skip 1) else none
  else
    let (handle, after) ← readHandle c
    let (text, c) ← readText false fuel [] after
    if 1 < handle.length && handle.getLast? == some '!' then
      if text.isEmpty then none else some (handle, text, c)
    else
      let text := handle.drop 1 ++ text
      if text.isEmpty then some ([], ['!'], c) else some (['!'], text, c)

/-- Whether a number of a version starts the characters, and how long it is. -/
def numberLength? (c : Cursor) : Option (Nat × Nat) :=
  let digits := c.rest.takeWhile Char.isDigit
  if digits.isEmpty || 9 < digits.length then none
  else some (digits.foldl (fun n d => 10 * n + (d.toNat - '0'.toNat)) 0, digits.length)

/-- After the version of the format, which has to be 1.1 or 1.2. -/
def readVersion (c : Cursor) : Option Cursor := do
  let c := c.skipWhile isBlank
  let (major, n) ← numberLength? c
  let c := c.skip n
  if c.has 0 '.' then
    let c := c.skip 1
    let (minor, n) ← numberLength? c
    if major == 1 && (minor == 1 || minor == 2) then some (c.skip n) else none
  else none

/-- A handle and what it stands for. -/
def readDirective (fuel : Nat) (c : Cursor) : Option (List Char × List Char × Cursor) := do
  let (handle, c) ← readHandle (c.skipWhile isBlank)
  if handle == ['!'] || (1 < handle.length && handle.getLast? == some '!') then
    if c.atBlank then
      let (text, c) ← readText true fuel [] (c.skipWhile isBlank)
      if !text.isEmpty && c.spaceAt 0 then some (handle, text, c) else none
    else none
  else none

end SignalSchema.Yaml.Tag
