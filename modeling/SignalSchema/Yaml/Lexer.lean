import SignalSchema.Yaml.Scalar.Block
import SignalSchema.Yaml.Scalar.Plain
import SignalSchema.Yaml.Scalar.Quoted
import SignalSchema.Yaml.Tag
import SignalSchema.Yaml.Token

/-!
# From a layer text to tokens

Two things make this more than cutting a text into pieces. The indentation of a line opens and
closes block collections. And a scalar turns out to be a key only when a colon follows it, so
the lexer remembers where such a key could start, for the block level and every flow collection
around the current place, and adds the key's tokens there later.
-/

namespace SignalSchema.Yaml

/-- A place where a key without a mark can start. -/
structure PossibleKey where
  /-- The number of tokens before. -/
  position : Nat
  index : Nat
  line : Nat
  column : Nat
  /-- Whether nothing but a key can stand there. -/
  required : Bool

/-- What the lexer knows at a place in the text. -/
structure Lexer where
  cursor : Cursor
  /-- The tokens so far, the last one first, and their number. -/
  tokens : List Token
  count : Nat
  /-- The columns of the open block collections, the innermost first. -/
  indents : List Nat
  /-- The possible key of the current level, and those of the levels around it. -/
  possible : Option PossibleKey
  outer : List (Option PossibleKey)
  /-- Whether a key without a mark can start here. -/
  keyAllowed : Bool

namespace Lexer

/-- The lexer at the start of a text. -/
def start (cs : List Char) : Lexer :=
  ⟨Cursor.start cs, [], 0, [], none, [], true⟩

/-- Whether the place lies in a flow collection. -/
def inFlow (l : Lexer) : Bool :=
  !l.outer.isEmpty

/-- Adds a token at the end. -/
def push (l : Lexer) (token : Token) : Lexer :=
  { l with tokens := token :: l.tokens, count := l.count + 1 }

/-- Adds a token after the first `position` ones. -/
def insertAt (l : Lexer) (position : Nat) (token : Token) : Lexer :=
  let later := l.count - position
  { l with
    tokens := l.tokens.take later ++ token :: l.tokens.drop later
    count := l.count + 1 }

/-- Moves the cursor. -/
def goto (l : Lexer) (c : Cursor) : Lexer :=
  { l with cursor := c }

/-- Moves the cursor over `n` characters. -/
def skip (l : Lexer) (n : Nat) : Lexer :=
  l.goto (l.cursor.skip n)

/-- Says whether a key can start next. -/
def allowKey (l : Lexer) (allowed : Bool) : Lexer :=
  { l with keyAllowed := allowed }

/-! ### Space between tokens -/

/-- Passes over blanks, comments and line breaks. Tabs may not stand where a key could start in
a block. The fuel bounds the number of lines. -/
def skipSpace : Nat → Lexer → Lexer
  | 0, l => l
  | fuel + 1, l =>
    let c := l.cursor
    let c := if c.index == 0 && c.peek?.any (·.toNat == 0xFEFF) then c.skip 1 else c
    let c := c.skipWhile fun x => x == ' ' || ((l.inFlow || !l.keyAllowed) && x == '\t')
    let c := if c.has 0 '#' then c.skipLine else c
    if c.atBreak then skipSpace fuel ((l.goto c.skipBreak).allowKey (l.keyAllowed || !l.inFlow))
    else l.goto c

/-! ### Keys and indentation -/

/-- A key without a mark has to end on its line and within 1024 characters. -/
def isStale (c : Cursor) (key : PossibleKey) : Bool :=
  key.line < c.line || key.index + 1024 < c.index

/-- A possible key as long as it is not stale, none at all if it is required. -/
def refresh? (c : Cursor) (key : Option PossibleKey) : Option (Option PossibleKey) :=
  match key with
  | some key => if isStale c key then if key.required then none else some none else some (some key)
  | none => some none

/-- Forgets stale keys. -/
def dropStale (l : Lexer) : Option Lexer := do
  let possible ← refresh? l.cursor l.possible
  let outer ← l.outer.mapM (refresh? l.cursor)
  some { l with possible := possible, outer := outer }

/-- Forgets the possible key of the current level, which may not be required. -/
def dropKey (l : Lexer) : Option Lexer :=
  if l.possible.any (·.required) then none else some { l with possible := none }

/-- Remembers that a key can start here. -/
def saveKey (l : Lexer) : Option Lexer :=
  if l.keyAllowed then do
    let c := l.cursor
    let required := !l.inFlow && l.indents.head? == some c.column
    let l ← l.dropKey
    some { l with possible := some ⟨l.count, c.index, c.line, c.column, required⟩ }
  else some l

/-- Opens a block collection in a column if it is to the right of the innermost one. Its start
is added after the first `position` tokens. -/
def openBlock (l : Lexer) (column position : Nat) (token : Token) : Lexer :=
  if l.inFlow || l.indents.head?.any (column ≤ ·) then l
  else { l.insertAt position token with indents := column :: l.indents }

/-- Closes the block collections that do not reach the place, all of them when `column` is
absent. -/
def closeBlocks (l : Lexer) (column : Option Nat) : Lexer :=
  if l.inFlow then l
  else
    let isClosed (n : Nat) : Bool := column.all (· < n)
    let ends := (l.indents.takeWhile isClosed).map fun _ => Token.blockEnd
    { l with
      tokens := ends ++ l.tokens
      count := l.count + ends.length
      indents := l.indents.dropWhile isClosed }

/-! ### Tokens -/

/-- A directive up to the end of its line. -/
def readDirective (fuel : Nat) (l : Lexer) : Option Lexer := do
  let l ← (l.closeBlocks none).dropKey
  let c := l.cursor.skip 1
  let name := c.rest.takeWhile isNameChar
  let c := c.skip name.length
  let (token, c) ←
    if !c.spaceAt 0 then none
    else if name == ['Y', 'A', 'M', 'L'] then (Tag.readVersion c).map fun c => (Token.version, c)
    else if name == ['T', 'A', 'G'] then
      (Tag.readDirective fuel c).map fun (handle, text, c) =>
        (Token.tagDirective (String.ofList handle) (String.ofList text), c)
    else none
  let c := c.skipWhile isBlank
  let c := if c.has 0 '#' then c.skipLine else c
  if c.atLineEnd then some (((l.push token).goto c.skipBreak).allowKey false) else none

/-- A line between documents. -/
def readDocumentMark (l : Lexer) (token : Token) : Option Lexer := do
  let l ← (l.closeBlocks none).dropKey
  some (((l.push token).skip 3).allowKey false)

/-- The start of a flow collection. -/
def openFlow (l : Lexer) (token : Token) : Option Lexer := do
  let l ← l.saveKey
  let l := { l with possible := none, outer := l.possible :: l.outer }
  some (((l.push token).skip 1).allowKey true)

/-- The end of a flow collection. -/
def closeFlow (l : Lexer) (token : Token) : Option Lexer := do
  let l ← l.dropKey
  let l :=
    match l.outer with
    | possible :: outer => { l with possible := possible, outer := outer }
    | [] => l
  some (((l.push token).skip 1).allowKey false)

/-- A comma between the parts of a flow collection. -/
def readFlowEntry (l : Lexer) : Option Lexer := do
  let l ← l.dropKey
  some (((l.push .flowEntry).skip 1).allowKey true)

/-- The mark of an item of a block sequence. -/
def readBlockEntry (l : Lexer) : Option Lexer := do
  if !l.inFlow && !l.keyAllowed then none
  else
    let l ← (l.openBlock l.cursor.column l.count .blockSequence).dropKey
    some (((l.push .blockEntry).skip 1).allowKey true)

/-- The mark of a key. -/
def readKeyMark (l : Lexer) : Option Lexer := do
  if !l.inFlow && !l.keyAllowed then none
  else
    let l ← (l.openBlock l.cursor.column l.count .blockMapping).dropKey
    some (((l.push .key).skip 1).allowKey (!l.inFlow))

/-- The mark of a value. What comes before it on its line was a key if it could be one. -/
def readValueMark (l : Lexer) : Option Lexer :=
  match l.possible with
  | some key =>
    let l := (l.insertAt key.position .key).openBlock key.column key.position .blockMapping
    some ((({ l with possible := none }.push .value).skip 1).allowKey false)
  | none =>
    if !l.inFlow && !l.keyAllowed then none
    else
      let l := l.openBlock l.cursor.column l.count .blockMapping
      some (((l.push .value).skip 1).allowKey (!l.inFlow))

/-- The marks that can follow the name of an anchor or alias directly. -/
def nameEnds : List Char := ['?', ':', ',', ']', '}', '%', '@', '\x60']

/-- The name of an anchor or alias. -/
def readAnchor (l : Lexer) (token : String → Token) : Option Lexer := do
  let l ← l.saveKey
  let c := l.cursor.skip 1
  let name := c.rest.takeWhile isNameChar
  let c := c.skip name.length
  if name.isEmpty || !(c.spaceAt 0 || c.peek?.any nameEnds.contains) then none
  else some (((l.push (token (String.ofList name))).goto c).allowKey false)

/-- A tag, which has to stand apart from what follows. -/
def readTag (fuel : Nat) (l : Lexer) : Option Lexer := do
  let l ← l.saveKey
  let (handle, text, c) ← Tag.read fuel l.cursor
  if c.spaceAt 0 || (l.inFlow && c.has 0 ',') then
    some (((l.push (.tag (String.ofList handle) (String.ofList text))).goto c).allowKey false)
  else none

/-- A block scalar. -/
def readBlockScalar (fuel : Nat) (l : Lexer) (literal : Bool) : Option Lexer := do
  let l ← l.dropKey
  let (text, c) ← Block.read fuel literal l.indents.head? (l.cursor.skip 1)
  let style := if literal then Style.literal else .folded
  some (((l.push (.scalar style (String.ofList text))).goto c).allowKey true)

/-- A quoted scalar. -/
def readQuoted (fuel : Nat) (l : Lexer) (single : Bool) : Option Lexer := do
  let l ← l.saveKey
  let (text, c) ← Quoted.read single fuel [] (l.cursor.skip 1)
  let style := if single then Style.single else .double
  some (((l.push (.scalar style (String.ofList text))).goto c).allowKey false)

/-- A plain scalar. -/
def readPlain (fuel : Nat) (l : Lexer) : Option Lexer := do
  let l ← l.saveKey
  let least := match l.indents.head? with | some n => n + 1 | none => 0
  let (text, ended, c) ← Plain.read l.inFlow least fuel [] Gap.empty l.cursor
  some (((l.push (.scalar .plain (String.ofList text))).goto c).allowKey ended)

/-- Whether a plain scalar can start here, with `x`. -/
def startsPlain (l : Lexer) (x : Char) : Bool :=
  !(isBlank x || isBreak x || isMark x || ['-', '?', ':'].contains x) ||
    (x == '-' && !(l.cursor.peekAt? 1).any isBlank) ||
    (!l.inFlow && (x == '?' || x == ':') && !l.cursor.spaceAt 1)

/-- The next token, which starts with `x`. The fuel exceeds the number of characters. -/
def readToken (fuel : Nat) (l : Lexer) (x : Char) : Option Lexer :=
  let c := l.cursor
  let apart := c.spaceAt 1
  if c.column == 0 && x == '%' then l.readDirective fuel
  else if c.atMark '-' then l.readDocumentMark .documentStart
  else if c.atMark '.' then l.readDocumentMark .documentEnd
  else if x == '[' then l.openFlow .flowSequence
  else if x == '{' then l.openFlow .flowMapping
  else if x == ']' then l.closeFlow .flowSequenceEnd
  else if x == '}' then l.closeFlow .flowMappingEnd
  else if x == ',' then l.readFlowEntry
  else if x == '-' && apart then l.readBlockEntry
  else if x == '?' && (l.inFlow || apart) then l.readKeyMark
  else if x == ':' && (l.inFlow || apart) then l.readValueMark
  else if x == '*' then l.readAnchor .alias
  else if x == '&' then l.readAnchor .anchor
  else if x == '!' then l.readTag fuel
  else if x == '|' && !l.inFlow then l.readBlockScalar fuel true
  else if x == '>' && !l.inFlow then l.readBlockScalar fuel false
  else if x == '\'' then l.readQuoted fuel true
  else if x == '"' then l.readQuoted fuel false
  else if l.startsPlain x then l.readPlain fuel
  else none

/-- The tokens of the rest of the text. The fuel exceeds the number of characters, and every token
has at least one. -/
def run : Nat → Lexer → Option (List Token)
  | 0, _ => none
  | fuel + 1, l => do
    let l := l.skipSpace (fuel + 1)
    let l ← l.dropStale
    let l := l.closeBlocks (some l.cursor.column)
    match l.cursor.peek? with
    | some x => run fuel (← l.readToken (fuel + 1) x)
    | none => do
      let l ← (l.closeBlocks none).dropKey
      some l.tokens.reverse

end Lexer

/-- The tokens of a text, none if it has a character or a token that is not allowed. -/
def Token.scan? (source : String) : Option (List Token) :=
  let cs := source.toList
  if cs.all isAllowed then Lexer.run (cs.length + 1) (Lexer.start cs) else none

end SignalSchema.Yaml
