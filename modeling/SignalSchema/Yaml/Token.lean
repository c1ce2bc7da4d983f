/-!
# Tokens of layer texts

What the lexer tells the grammar: the marks that are written, and the starts and ends of block
collections, which indentation implies.
-/

namespace SignalSchema.Yaml

/-- How a scalar is written. -/
inductive Style where
  | plain
  | single
  | double
  | literal
  | folded
  deriving DecidableEq, Repr

/-- A token. -/
inductive Token where
  | version
  | tagDirective (handle start : String)
  | documentStart
  | documentEnd
  | blockSequence
  | blockMapping
  | blockEnd
  | flowSequence
  | flowSequenceEnd
  | flowMapping
  | flowMappingEnd
  | blockEntry
  | flowEntry
  | key
  | value
  | alias (name : String)
  | anchor (name : String)
  | tag (handle rest : String)
  | scalar (style : Style) (text : String)
  deriving DecidableEq, Repr

end SignalSchema.Yaml
