import SignalSchema.Yaml.Token

/-!
# Nodes of layer texts

A text is a tree of scalars, sequences and mappings, in which a node can be marked by an anchor
and an alias stands for a marked node. Anchors are labelled by their names at first, by numbers
once it is settled which node an alias stands for.
-/

namespace SignalSchema.Yaml

/-- The anchor and the tag in front of a node. -/
structure Properties (α : Type) where
  anchor : Option α
  tag : Option String

/-- No anchor and no tag. -/
def Properties.empty {α : Type} : Properties α := ⟨none, none⟩

/-- A node whose anchors have labels of type `α`. -/
inductive Node (α : Type) where
  | alias (label : α)
  | scalar (properties : Properties α) (style : Style) (text : String)
  | sequence (properties : Properties α) (items : List (Node α))
  | mapping (properties : Properties α) (entries : List (Node α × Node α))

namespace Node

variable {α β : Type}

/-- The node that is not written. -/
def absent : Node α := .scalar Properties.empty .plain ""

/-- The label of a node's anchor. -/
def anchor? : Node α → Option α
  | .alias _ => none
  | .scalar properties _ _ => properties.anchor
  | .sequence properties _ => properties.anchor
  | .mapping properties _ => properties.anchor

mutual
/-- A node and all nodes below it, each before those below itself. -/
def flatten : Node α → List (Node α)
  | .sequence properties items => .sequence properties items :: flattenItems items
  | .mapping properties entries => .mapping properties entries :: flattenEntries entries
  | node => [node]
/-- The nodes in a list of items. -/
def flattenItems : List (Node α) → List (Node α)
  | [] => []
  | node :: rest => node.flatten ++ flattenItems rest
/-- The nodes in a list of entries. -/
def flattenEntries : List (Node α × Node α) → List (Node α)
  | [] => []
  | (key, value) :: rest => key.flatten ++ value.flatten ++ flattenEntries rest
end

/-- The number of marks that write a node: two for a collection, one for anything else. -/
def weight : Node α → Nat
  | .sequence .. => 2
  | .mapping .. => 2
  | _ => 1

end Node

end SignalSchema.Yaml
