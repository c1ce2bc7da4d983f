import SignalSchema.Text.Blank
import SignalSchema.Yaml.Scalar.Written
import SignalSchema.Yaml.Tag

/-!
# Writing values

Collections are written in blocks, one item or entry a line, empty ones as brackets. A key that
is short and fits on a line stands before a colon; any other key has a mark of its own.
-/

namespace SignalSchema.Yaml

/-- A line. -/
abbrev Line := List Char

/-- Indentation by `n`. -/
def pad (n : Nat) : Line := List.replicate n ' '

namespace Value

/-- The longest key, in bytes, that stands before a colon without a mark. -/
def keyLimit : Nat := 128

/-- The bytes of a scalar or empty collection on one line, none for all other values. -/
def inlineSize? : Value → Option Nat
  | .null => some 4
  | .bool value => some (if value then 4 else 5)
  | .number n => some (Written.number n).utf8ByteSize
  | .string s => if s.toList.any isBreak then none else some s.utf8ByteSize
  | .sequence items => if items.isEmpty then some 0 else none
  | .mapping entries => if entries.isEmpty then some 0 else none
  | .tagged tag value => value.inlineSize?.map (· + tag.utf8ByteSize + 1)

/-- Whether a key stands before a colon without a mark. -/
def isSimpleKey (key : Value) : Bool :=
  key.inlineSize?.any (· ≤ keyLimit)

/-- The indentation of the lines of a block scalar. -/
def scalarPad (indent : Option Nat) : Line :=
  match indent with
  | some n => pad (n + 2)
  | none => pad 2

/-- A tag; characters outside of its alphabet are escaped byte by byte. -/
def tagText (tag : String) : Line :=
  '!' :: tag.toList.flatMap fun c =>
    if Tag.isTagChar true c then [c]
    else (String.singleton c).toUTF8.toList.flatMap fun b => '%' :: Written.hex 2 b.toNat

/-- The lines of a block collection put where a node starts. If it can start on the current line
it does, after `lead`, and without the indentation of its first line. -/
def placed (fresh : Bool) (lead : Line) (indent : Nat) : List Line → Line × List Line
  | [] => ([], [])
  | first :: rest => if fresh then (lead ++ first.drop indent, rest) else ([], first :: rest)

/-- The indentation of a collection inside another one. -/
def innerIndent (indent : Option Nat) : Nat :=
  match indent with
  | some n => n + 2
  | none => 0

mutual
/-- A value inside a collection that is indented by `indent`: what is added to the current line,
and the lines after it. Inside a mapping the items of a sequence are indented no further than
the keys, unless the sequence starts on the current line, as it can if `fresh` is set. -/
def write (indent : Option Nat) (inMapping fresh : Bool) (lead : Line) : Value → Line × List Line
  | .null => (lead ++ "null".toList, [])
  | .bool true => (lead ++ "true".toList, [])
  | .bool false => (lead ++ "false".toList, [])
  | .number n => (lead ++ (Written.number n).toList, [])
  | .string s =>
    let (head, rest) := Written.text (scalarPad indent) s
    (lead ++ head, rest)
  | .sequence [] => (lead ++ ['[', ']'], [])
  | .sequence items =>
    let inner := if inMapping && !fresh then indent.getD 0 else innerIndent indent
    placed fresh lead inner (writeItems inner items)
  | .mapping [] => (lead ++ ['{', '}'], [])
  | .mapping entries =>
    let inner := innerIndent indent
    placed fresh lead inner (writeEntries inner entries)
  | .tagged tag value =>
    let (head, rest) := write indent inMapping false [' '] value
    (lead ++ tagText tag ++ head, rest)
/-- The lines of the items of a sequence. -/
def writeItems (indent : Nat) : List Value → List Line
  | [] => []
  | item :: items =>
    let (head, rest) := write (some indent) false true [' '] item
    ((pad indent ++ ['-'] ++ head) :: rest) ++ writeItems indent items
/-- The lines of the entries of a mapping. -/
def writeEntries (indent : Nat) : List (Value × Value) → List Line
  | [] => []
  | (key, value) :: entries =>
    let written :=
      if key.isSimpleKey then
        let (name, _) := write (some indent) true true [] key
        let (head, rest) := write (some indent) true false [' '] value
        (pad indent ++ name ++ [':'] ++ head) :: rest
      else
        let (name, nameRest) := write (some indent) true true [' '] key
        let (head, rest) := write (some indent) true true [' '] value
        (pad indent ++ ['?'] ++ name) :: nameRest ++ ((pad indent ++ [':'] ++ head) :: rest)
    written ++ writeEntries indent entries
end

/-- The lines of a text that reads back as the value. -/
def lines (value : Value) : List Line :=
  let (head, rest) := value.write none false true []
  if head.isEmpty then rest else head :: rest

/-- A text that reads back as the value. -/
def text (value : Value) : String :=
  String.ofList (value.lines.flatMap (· ++ ['\n']))

/-- The text of a value as a name: of a text itself, of a number or truth value what stands for
it, and of anything else what it is written as. -/
def name : Value → String
  | .string s => s
  | .bool value => if value then "true" else "false"
  | .number n => Written.number n
  | .null => "null"
  | value => String.ofList (Text.trimEnd value.text.toList)

end Value

end SignalSchema.Yaml
