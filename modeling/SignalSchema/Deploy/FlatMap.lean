import SignalSchema.Table
import SignalSchema.Deploy.Entry

/-!
# Flat maps

A layer is a tree; the flat map lists its nodes under their qualified names, the segments
joined by underscores. Flattening is a walk that yields steps, and the flat map is what the
steps make of the empty table: a node outside of lists replaces what was under its name, and
the nodes inside of list items are collected under one name.
-/

namespace SignalSchema.Deploy

/-- What is found under a qualified name. -/
inductive Slot where
  | single (entry : Entry)
  | many (entries : List Entry)

namespace Slot

/-- The entry itself, or the first of several. -/
def first? : Slot → Option Entry
  | single entry => some entry
  | many entries => entries.head?

/-- All entries of a slot. -/
def entries : Slot → List Entry
  | single entry => [entry]
  | many es => es

/-- Whether the slot was made from list items. -/
def isMany : Slot → Bool
  | single _ => false
  | many _ => true

end Slot

/-- The nodes of a layer by qualified name. -/
structure FlatMap where
  slots : Table Slot

/-- The qualified name of a key below a path. -/
def joinName (path key : String) : String :=
  if path = "" then key else path ++ "_" ++ key

namespace FlatMap

/-- A change to the table of slots. -/
inductive Step where
  /-- Makes room for list items under a name that has none. -/
  | reserve (name : String)
  /-- Puts a node under a name, whatever was there. -/
  | place (name : String) (node : Json)
  /-- Adds a node to those under a name. -/
  | append (name : String) (node : Json)
  /-- Adds a node under a name that has none. -/
  | appendNew (name : String) (node : Json)

namespace Step

/-- The step that enters a node, depending on whether the walk is inside of a list. -/
def enter (inList : Bool) (name : String) (node : Json) : Step :=
  if inList then append name node else place name node

/-- The table with an entry added under a name. -/
def addEntry (slots : Table Slot) (entry : Entry) : Table Slot :=
  match slots.get? entry.name with
  | some (.many entries) => slots.insert entry.name (.many (entries ++ [entry]))
  | some (.single previous) => slots.insert entry.name (.many [previous, entry])
  | none => slots.insert entry.name (.many [entry])

/-- The table after a step. -/
def apply (slots : Table Slot) : Step → Table Slot
  | reserve name => if slots.contains name then slots else slots.insert name (.many [])
  | place name node => slots.insert name (.single (Entry.ofNode name node))
  | append name node => addEntry slots (Entry.ofNode name node)
  | appendNew name node =>
    if slots.contains name then slots else addEntry slots (Entry.ofNode name node)

end Step

/-- The first branch of a payload of constants, if it is a mapping. -/
def constantBranch : Json → List (String × Json)
  | .object ((_, .object fields) :: _) => fields
  | .array (.object fields :: _) => fields
  | _ => []

/-- The steps for a mapping with constants: the mapping itself and one child for every key of
the first branch. A mapping inside of a list has already been entered by its parent. -/
def constantSteps (path : String) (inList : Bool) (fields : List (String × Json)) : List Step :=
  match Json.field? fields Key.constants with
  | none => []
  | some payload =>
    let own :=
      if inList then Step.appendNew path (.object fields) else Step.place path (.object fields)
    own :: (constantBranch payload).map fun (key, value) =>
      Step.enter inList (path ++ "_" ++ key) value

/-- The steps that make room for the keys of a list item. -/
def reserveSteps (path : String) : Json → List Step
  | .object fields =>
    (fields.filter fun e => !Key.isReserved e.1).map fun e => Step.reserve (joinName path e.1)
  | _ => []

mutual
/-- The steps of the walk below a node. -/
def steps (path : String) (inList : Bool) : Json → List Step
  | .object fields => constantSteps path inList fields ++ fieldSteps path inList fields
  | .array items => itemSteps path items
  | _ => []
/-- The steps for the fields of a mapping: every node before what is below it. -/
def fieldSteps (path : String) (inList : Bool) : List (String × Json) → List Step
  | [] => []
  | (key, node) :: rest =>
    if Key.isReserved key then fieldSteps path inList rest
    else
      Step.enter inList (joinName path key) node ::
        (steps (joinName path key) inList node ++ fieldSteps path inList rest)
/-- The steps for the items of a list. -/
def itemSteps (path : String) : List Json → List Step
  | [] => []
  | item :: rest => reserveSteps path item ++ steps path true item ++ itemSteps path rest
end

/-- The flat map of a layer. -/
def ofTree (tree : Json) : FlatMap where
  slots := (steps "" false tree).foldl Step.apply Table.empty

/-- What is under a name. -/
def get? (flat : FlatMap) (name : String) : Option Slot :=
  flat.slots.get? name

/-- Whether there is something under a name. -/
def contains (flat : FlatMap) (name : String) : Bool :=
  flat.slots.contains name

end FlatMap

end SignalSchema.Deploy
