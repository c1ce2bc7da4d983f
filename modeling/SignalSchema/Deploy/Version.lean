import SignalSchema.Decimal.Digits
import SignalSchema.Fault
import SignalSchema.Text.Blank

/-!
# Interface versions

A version has a major and a minor part of 32 bits each. It is written as a number or as a
text, `2`, `2.1` or `"2.1"`.
-/

namespace SignalSchema.Deploy

/-- The version of an interface. -/
structure Version where
  major : UInt32
  minor : UInt32
  deriving DecidableEq, Repr

namespace Version

/-- A version as text. -/
def display (v : Version) : String :=
  toString v.major.toNat ++ "." ++ toString v.minor.toNat

/-- A part of a version: decimal digits, possibly after a plus sign, with a value of at most
32 bits. -/
def part? (cs : List Char) : Option UInt32 :=
  let digits :=
    match cs with
    | '+' :: rest => rest
    | cs => cs
  if digits.isEmpty || !digits.all Char.isDigit then none
  else
    let n := Decimal.digitsValue digits
    if n < 0x100000000 then some (UInt32.ofNat n) else none

/-- A version from its characters: a part, or two parts with a point between them. -/
def ofChars? (cs : List Char) : Option Version := do
  let major ← part? (cs.takeWhile (· ≠ '.'))
  match cs.dropWhile (· ≠ '.') with
  | [] => some ⟨major, 0⟩
  | _ :: rest => do
    let minor ← part? rest
    some ⟨major, minor⟩

/-- A version from a text, around which there may be blank characters. -/
def ofText (entry text : String) : Except Fault Version :=
  match ofChars? (Text.trim text.toList) with
  | some v => .ok v
  | none => .error (.malformed entry (.versionText text))

/-- A version from the payload of a binding. A natural number is a major version, and any
other number is read like its text. -/
def ofJson (entry : String) : Json → Except Fault Version
  | .number (.int n) =>
    if n < 0 then ofText entry (Number.int n).text
    else if n < 0x100000000 then .ok ⟨UInt32.ofNat n.toNat, 0⟩
    else .error (.malformed entry (.versionRange (.int n)))
  | .number n => ofText entry n.text
  | .string s => ofText entry s
  | _ => .error (.malformed entry .versionType)

end Version

end SignalSchema.Deploy
