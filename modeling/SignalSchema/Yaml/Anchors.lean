import SignalSchema.Table
import SignalSchema.Yaml.Node

/-!
# Anchors and aliases

An anchor gets a number, which is how many names of anchors were used before it. So a name that
is used a second time shares its number with the next new name, and an alias stands for the
last node of the text that has the number of its name.
-/

namespace SignalSchema.Yaml

/-- The numbers of the names used so far; every name has the last one it was given. -/
abbrev Numbering := StateT (Table Nat) Option

/-- Gives an anchor, if there is one, its number. -/
def Properties.number (properties : Properties String) : Numbering (Properties Nat) := do
  match properties.anchor with
  | none => return ⟨none, properties.tag⟩
  | some name =>
    let names ← get
    set (names.insert name names.size)
    return ⟨some names.size, properties.tag⟩

namespace Node

mutual
/-- A node with numbers for the names of anchors; an alias needs an anchor before it. -/
def number : Node String → Numbering (Node Nat)
  | .alias name => do
    match (← get).get? name with
    | some n => return .alias n
    | none => failure
  | .scalar properties style text => do
    return .scalar (← properties.number) style text
  | .sequence properties items => do
    let properties ← properties.number
    return .sequence properties (← numberItems items)
  | .mapping properties entries => do
    let properties ← properties.number
    return .mapping properties (← numberEntries entries)
/-- Items with numbers for the names of anchors. -/
def numberItems : List (Node String) → Numbering (List (Node Nat))
  | [] => return []
  | node :: rest => do
    let node ← node.number
    return node :: (← numberItems rest)
/-- Entries with numbers for the names of anchors. -/
def numberEntries : List (Node String × Node String) → Numbering (List (Node Nat × Node Nat))
  | [] => return []
  | (key, value) :: rest => do
    let key ← key.number
    let value ← value.number
    return (key, value) :: (← numberEntries rest)
end

end Node

/-- A document whose aliases can be followed. -/
structure Graph where
  root : Node Nat
  /-- The nodes with anchors and their numbers, the last one first. -/
  targets : List (Nat × Node Nat)
  /-- The number of marks that write the document. -/
  weight : Nat

namespace Graph

/-- The document with a root node, none if some alias has no anchor. -/
def ofNode? (node : Node String) : Option Graph := do
  let (root, _) ← node.number Table.empty
  let nodes := root.flatten
  let targets := nodes.filterMap fun node => node.anchor?.map fun n => (n, node)
  some ⟨root, targets.reverse, nodes.foldl (fun sum node => sum + node.weight) 0⟩

/-- The node that a node stands for. -/
def follow? (g : Graph) : Node Nat → Option (Node Nat)
  | .alias n => g.targets.lookup n
  | node => some node

end Graph

end SignalSchema.Yaml
