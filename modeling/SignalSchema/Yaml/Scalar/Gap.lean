import SignalSchema.Yaml.Cursor

/-!
# Gaps inside scalars

Blanks and line breaks between two words of a scalar. On one line the blanks belong to the
scalar. A gap over several lines is folded: one line break becomes a space, and of several
the first is dropped.
-/

namespace SignalSchema.Yaml

/-- A gap that has been read. -/
structure Gap where
  /-- The blanks of a gap on one line. -/
  blanks : List Char
  /-- The first line break. -/
  first : List Char
  /-- The line breaks after the first one. -/
  more : List Char
  /-- Whether the gap goes over a line break, be it an escaped one. -/
  spans : Bool

namespace Gap

/-- Nothing between two words. -/
def empty : Gap := ⟨[], [], [], false⟩

/-- A line break that is escaped and adds nothing. -/
def escapedBreak : Gap := ⟨[], [], [], true⟩

/-- What a gap adds to the scalar. -/
def fold (g : Gap) : List Char :=
  if g.spans then
    if g.first == ['\n'] then if g.more.isEmpty then [' '] else g.more else g.first ++ g.more
  else g.blanks

/-- Reads on in a gap up to the next word. A tab may not stand before the column `least` of a
new line. The fuel bounds the number of characters. -/
def read (least : Nat) : Nat → Gap → Cursor → Option (Gap × Cursor)
  | 0, g, c => some (g, c)
  | fuel + 1, g, c =>
    if c.atBlank then
      if !g.spans then read least fuel { g with blanks := g.blanks ++ c.rest.take 1 } (c.skip 1)
      else if c.column < least && c.has 0 '\t' then none
      else read least fuel g (c.skip 1)
    else if c.atBreak then
      let (line, next) := c.takeBreak
      if g.spans then read least fuel { g with more := g.more ++ line } next
      else read least fuel ⟨[], line, [], true⟩ next
    else some (g, c)

end Gap

end SignalSchema.Yaml
