/-!
# Places in a layer text

A cursor is what remains of a text together with where it starts: how many characters and
lines came before, and how many characters of its own line. A text is only read if all of its
characters are allowed.
-/

namespace SignalSchema.Yaml

/-- The characters that may stand in a text: printable ones, tabs, line breaks and the byte
order mark. -/
def isAllowed (c : Char) : Bool :=
  let n := c.toNat
  n == 0x9 || n == 0xA || n == 0xD || (0x20 ≤ n && n ≤ 0x7E) || n == 0x85 ||
    (0xA0 ≤ n && n ≤ 0xD7FF) || (0xE000 ≤ n && n ≤ 0xFFFD) || 0x10000 ≤ n

/-- The characters that end a line. -/
def isBreak (c : Char) : Bool :=
  c == '\n' || c == '\r' || c.toNat == 0x85 || c.toNat == 0x2028 || c.toNat == 0x2029

/-- The characters that separate words on a line. -/
def isBlank (c : Char) : Bool :=
  c == ' ' || c == '\t'

/-- The characters that are part of the notation wherever a scalar could start. -/
def isMark (c : Char) : Bool :=
  [',', '[', ']', '{', '}', '#', '&', '*', '!', '|', '>', '\'', '"', '%', '@', '\x60'].contains c

/-- The characters of names: of anchors, directives and tag handles. -/
def isNameChar (c : Char) : Bool :=
  c.isAlphanum || c == '_' || c == '-'

/-- What remains of a text, and where it starts. -/
structure Cursor where
  rest : List Char
  /-- The number of characters before. -/
  index : Nat
  /-- The number of lines before. -/
  line : Nat
  /-- The number of characters before on the same line. -/
  column : Nat

namespace Cursor

/-- The start of a text. -/
def start (cs : List Char) : Cursor := ⟨cs, 0, 0, 0⟩

/-- The next character. -/
def peek? (c : Cursor) : Option Char :=
  c.rest.head?

/-- The character after `n` others. -/
def peekAt? (c : Cursor) (n : Nat) : Option Char :=
  c.rest[n]?

/-- Whether the character after `n` others is `x`. -/
def has (c : Cursor) (n : Nat) (x : Char) : Bool :=
  c.peekAt? n == some x

/-- Whether the text ends here. -/
def atEnd (c : Cursor) : Bool :=
  c.rest.isEmpty

/-- Whether a line break follows. -/
def atBreak (c : Cursor) : Bool :=
  c.peek?.any isBreak

/-- Whether a line break or the end follows. -/
def atLineEnd (c : Cursor) : Bool :=
  c.peek?.all isBreak

/-- Whether a blank follows. -/
def atBlank (c : Cursor) : Bool :=
  c.peek?.any isBlank

/-- Whether a blank, a line break or the end comes after `n` characters. -/
def spaceAt (c : Cursor) (n : Nat) : Bool :=
  (c.peekAt? n).all fun x => isBlank x || isBreak x

/-- After `n` characters of the same line. -/
def skip (c : Cursor) (n : Nat) : Cursor :=
  ⟨c.rest.drop n, c.index + n, c.line, c.column + n⟩

/-- After the characters of the same line that satisfy `p`. -/
def skipWhile (p : Char → Bool) (c : Cursor) : Cursor :=
  c.skip (c.rest.takeWhile p).length

/-- After `n` characters that end the line. -/
def nextLine (c : Cursor) (n : Nat) : Cursor :=
  ⟨c.rest.drop n, c.index + n, c.line + 1, 0⟩

/-- A line break: what it contributes to a text that spans it, and the start of the next line.
Line feeds and carriage returns count as line feeds, the separators of lines and paragraphs as
themselves. -/
def takeBreak (c : Cursor) : List Char × Cursor :=
  match c.rest with
  | '\r' :: '\n' :: _ => (['\n'], c.nextLine 2)
  | x :: _ =>
    if x == '\n' || x == '\r' || x.toNat == 0x85 then (['\n'], c.nextLine 1)
    else if isBreak x then ([x], c.nextLine 1)
    else ([], c)
  | [] => ([], c)

/-- The start of the next line, when a line break follows. -/
def skipBreak (c : Cursor) : Cursor :=
  c.takeBreak.2

/-- After a comment and all else up to the end of the line. -/
def skipLine (c : Cursor) : Cursor :=
  c.skipWhile (!isBreak ·)

/-- Whether a line starts here with the given character three times and nothing joined to it. -/
def atMark (c : Cursor) (x : Char) : Bool :=
  c.column == 0 && c.rest.take 3 == [x, x, x] && c.spaceAt 3

/-- Whether a line starts here that separates documents. -/
def atDocumentMark (c : Cursor) : Bool :=
  c.atMark '-' || c.atMark '.'

end Cursor

end SignalSchema.Yaml
