import SignalSchema.Yaml.Anchors
import SignalSchema.Yaml.Core
import SignalSchema.Yaml.Grammar
import SignalSchema.Yaml.Lexer

/-!
# Documents

A layer text is read in steps: tokens, nodes, a graph whose aliases are known, and its value.
Aliases can make the value much larger than the text, so their number is bounded, and so is
the number of collections inside each other.
-/

namespace SignalSchema.Yaml

/-- Reads a text up to the point where its aliases are known. The document is absent if the
text has no content. -/
def Graph.parse? (source : String) : Option (Option Graph) := do
  let tokens ← Token.scan? source
  match ← Grammar.readDocument tokens with
  | none => some none
  | some node => (Graph.ofNode? node).map some

/-- A computation that counts the aliases it follows. -/
abbrev Following := StateT Nat Option

namespace Graph

/-- How many collections may lie inside each other. -/
def depthLimit : Nat := 128

/-- Follows a node if it is an alias. There may be a hundred times as many steps as the text
has marks. -/
def step (g : Graph) (node : Node Nat) : Following (Node Nat) := do
  match node with
  | .alias _ =>
    modify (· + 1)
    if 100 * g.weight < (← get) then failure
    else g.follow? node
  | node => return node

/-- The value of a scalar. -/
def scalar? (tag : Option String) (style : Style) (text : String) : Option Value :=
  let untagged := if style = .plain then Core.plain? text else some (.string text)
  match tag with
  | none => untagged
  | some tag =>
    match Core.tagName? tag with
    | none => Core.standard? tag text
    | some "" => none
    | some name => untagged.map (.tagged name)

/-- A collection with its tag; only the tags that are names are kept. -/
def collection? (tag : Option String) (value : Value) : Option Value :=
  match tag.bind Core.tagName? with
  | none => some value
  | some "" => none
  | some name => some (.tagged name value)

/-- The value of a node that is no alias. Without a meaning for the nodes below it, it has to be
a scalar. Keys have to be distinct. -/
def valueOf (below : Option (Node Nat → Following Value)) (node : Node Nat) : Following Value := do
  match node with
  | .alias _ => failure
  | .scalar properties style text => scalar? properties.tag style text
  | .sequence properties items =>
    let value ← below
    let items ← items.mapM value
    collection? properties.tag (.sequence items)
  | .mapping properties entries =>
    let value ← below
    let entries ← entries.mapM fun (k, v) => do
      let k ← value k
      return (k, ← value v)
    if Value.distinct (entries.map Prod.fst) then collection? properties.tag (.mapping entries)
    else failure

/-- The value of a node inside of which at most `depth` collections may be nested. -/
def valueAt (g : Graph) : Nat → Node Nat → Following Value
  | 0, node => do valueOf none (← g.step node)
  | depth + 1, node => do valueOf (some (g.valueAt depth)) (← g.step node)

/-- The value of the document. -/
def value? (g : Graph) : Option Value :=
  (g.valueAt depthLimit g.root 0).map Prod.fst

end Graph

/-- The value of a text; a text without content is null. -/
def Value.parse? (source : String) : Option Value := do
  match ← Graph.parse? source with
  | none => some .null
  | some g => g.value?

end SignalSchema.Yaml
