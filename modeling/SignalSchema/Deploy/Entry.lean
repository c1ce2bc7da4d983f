import SignalSchema.Deploy.Keys
import SignalSchema.Json.Printer

/-!
# Layer entries

A node of a layer under its qualified name, with the mapping that says how it is deployed.
-/

namespace SignalSchema.Deploy

/-- Whether an entry stands for one value or for several. -/
inductive Cardinality where
  | one
  | many
  deriving DecidableEq, Repr

/-- A named node of a layer. -/
structure Entry where
  name : String
  /-- The mapping that holds the deploy directives. -/
  config : List (String × Json)
  cardinality : Cardinality
  /-- Whether the node itself is bound to an interface. -/
  isResolvable : Bool

namespace Entry

/-- The number of branches that a payload of constants declares. -/
def branchCount : Json → Nat
  | .object fields => fields.length
  | .array items => items.length
  | _ => 0

/-- The mapping of a node: the first item of a list, the node itself if it is a mapping, and
a constant otherwise. -/
def configOf : Json → List (String × Json)
  | .array items =>
    match items with
    | .object fields :: _ => fields
    | _ => []
  | .object fields => fields
  | value => [(Key.constants, value)]

/-- A list stands for many values, and so does a mapping with several branches of constants. -/
def cardinalityOf : Json → Cardinality
  | .array _ => .many
  | .object fields =>
    match Json.field? fields Key.constants with
    | some payload => if 1 < branchCount payload then .many else .one
    | none => .one
  | _ => .one

/-- The entry of a node. -/
def ofNode (name : String) (node : Json) : Entry where
  name := name
  config := configOf node
  cardinality := cardinalityOf node
  isResolvable := (node.get? Key.francaIDL).isSome

/-- Whether the mapping holds nothing. -/
def isEmpty (entry : Entry) : Bool :=
  entry.config.isEmpty

/-- The name and the mapping, one field a line. -/
def display (entry : Entry) : String :=
  entry.name ++ ": " ++ (Json.object entry.config).pretty ++ "\n"

end Entry

end SignalSchema.Deploy
