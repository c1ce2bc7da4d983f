import SignalSchema.Yaml.Cursor

/-!
# Block scalars

The lines of a block scalar share an indentation, which its first line that is not empty sets
unless the header does. A literal scalar keeps its line breaks; a folded one joins lines that
do not start with a blank.
-/

namespace SignalSchema.Yaml.Block

/-- What becomes of the line breaks at the end. -/
inductive Chomping where
  | strip
  | clip
  | keep
  deriving DecidableEq

/-- The first line of a block scalar. -/
structure Header where
  chomping : Chomping
  /-- By how much the lines are indented more than what surrounds them. -/
  increment : Option Nat

/-- The chomping that a sign asks for. -/
def chomping? : Option Char → Option Chomping
  | some '+' => some .keep
  | some '-' => some .strip
  | _ => none

/-- The indentation that a header asks for, if a digit follows; zero is refused. -/
def increment? (x : Option Char) : Option (Option Nat) :=
  match x.filter Char.isDigit with
  | some digit => if digit == '0' then none else some (some (digit.toNat - '0'.toNat))
  | none => some none

/-- The header after its mark, and the start of the next line. -/
def readHeader (c : Cursor) : Option (Header × Cursor) := do
  let (chomping, increment, n) ←
    match chomping? c.peek? with
    | some chomping => do
      let increment ← increment? (c.peekAt? 1)
      some (chomping, increment, if increment.isSome then 2 else 1)
    | none => do
      match ← increment? c.peek? with
      | some n =>
        match chomping? (c.peekAt? 1) with
        | some chomping => some (chomping, some n, 2)
        | none => some (Chomping.clip, some n, 1)
      | none => some (Chomping.clip, none, 0)
  let c := (c.skip n).skipWhile isBlank
  let c := if c.has 0 '#' then c.skipLine else c
  if c.atLineEnd then some (⟨chomping, increment⟩, c.skipBreak) else none

/-- Reads on over empty lines up to the indentation, if known, of the next line. The result is
the widest indentation seen, the line breaks and the place after. -/
def readEmpty (indent : Option Nat) :
    Nat → Nat → List Char → Cursor → Option (Nat × List Char × Cursor)
  | 0, _, _, _ => none
  | fuel + 1, widest, breaks, c =>
    let spaces := (c.rest.takeWhile (· == ' ')).length
    let c := c.skip (match indent with | some n => min spaces (n - c.column) | none => spaces)
    let widest := max widest c.column
    if indent.all (c.column < ·) && c.has 0 '\t' then none
    else if c.atBreak then
      let (line, next) := c.takeBreak
      readEmpty indent fuel widest (breaks ++ line) next
    else some (widest, breaks, c)

/-- The lines read so far. -/
structure Lines where
  text : List Char
  /-- The line break after the last line of text. -/
  lineBreak : List Char
  /-- Those of the empty lines after it. -/
  empty : List Char
  /-- Whether the last line of text starts with a blank. -/
  afterBlank : Bool

/-- The text with all line breaks that another line of text brings in. -/
def Lines.joined (l : Lines) (literal blank : Bool) : List Char :=
  if !literal && l.lineBreak == ['\n'] && !l.afterBlank && !blank then
    l.text ++ (if l.empty.isEmpty then [' '] else l.empty)
  else l.text ++ l.lineBreak ++ l.empty

/-- The text with the line breaks at its end that are kept. -/
def Lines.chomped (l : Lines) : Chomping → List Char
  | .strip => l.text
  | .clip => l.text ++ l.lineBreak
  | .keep => l.text ++ l.lineBreak ++ l.empty

/-- Reads on over lines that are indented by `indent`. -/
def readLines (literal : Bool) (indent : Nat) : Nat → Lines → Cursor → Option (Lines × Cursor)
  | 0, _, _ => none
  | fuel + 1, l, c =>
    if c.column == indent && !c.atEnd then do
      let blank := c.atBlank
      let text := l.joined literal blank ++ c.rest.takeWhile (!isBreak ·)
      let (lineBreak, c) := c.skipLine.takeBreak
      let (_, empty, c) ← readEmpty (some indent) (fuel + 1) 0 [] c
      readLines literal indent fuel ⟨text, lineBreak, empty, blank⟩ c
    else some (l, c)

/-- The text of a block scalar after its mark, and the place after. What surrounds it starts in
the column `parent`, if anything does. The fuel exceeds the number of characters. -/
def read (fuel : Nat) (literal : Bool) (parent : Option Nat) (c : Cursor) :
    Option (List Char × Cursor) := do
  let (header, c) ← readHeader c
  let known := header.increment.map (parent.getD 0 + ·)
  let (widest, empty, c) ← readEmpty known fuel 0 [] c
  let least := match parent with | some n => n + 1 | none => 1
  let indent := known.getD (max widest least)
  let (l, c) ← readLines literal indent fuel ⟨[], [], empty, false⟩ c
  some (l.chomped header.chomping, c)

end SignalSchema.Yaml.Block
