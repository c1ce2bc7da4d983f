import SignalSchema.Json.Reader
import SignalSchema.Fault

/-!
# Signal trees

The tree of signals of a vehicle as tools export it to JSON: an object with the single root,
every node an object with its properties and its children. A node may also be given as the
list of its properties in their fixed order. Properties that are not known are skipped.
-/

namespace SignalSchema

/-- What a node of the tree stands for. -/
inductive SignalKind where
  | branch
  | sensor
  | actuator
  | staticAttribute
  | struct
  | property
  | other
  deriving DecidableEq, Repr

namespace SignalKind

/-- The word for a kind of node. -/
def text : SignalKind → String
  | branch => "branch"
  | sensor => "sensor"
  | actuator => "actuator"
  | staticAttribute => "attribute"
  | struct => "struct"
  | property => "property"
  | other => "other"

/-- The kind that a word stands for. -/
def ofText (word : String) : SignalKind :=
  ([branch, sensor, actuator, staticAttribute, struct, property].find? (·.text == word)).getD other

end SignalKind

/-- What is known about a node apart from its children. -/
structure Signal where
  name : String
  /-- The names from the root down to the node itself. -/
  path : List String
  kind : SignalKind
  datatype : Option String
  description : Option String
  unit : Option String
  min : Option Json
  max : Option Json
  deprecation : Option String

/-- The names on the way to a signal with a separator between them. -/
def Signal.qualifiedName (signal : Signal) (separator : String) : String :=
  separator.intercalate signal.path

/-- A tree of signals. -/
inductive SignalTree where
  | node (signal : Signal) (children : List SignalTree)

namespace SignalTree

/-- The signal at the root of a tree. -/
def signal : SignalTree → Signal
  | node s _ => s

/-- The trees below the root. -/
def children : SignalTree → List SignalTree
  | node _ cs => cs

/-- Whether nothing is below the root. -/
def isLeaf (tree : SignalTree) : Bool :=
  tree.children.isEmpty

mutual
/-- All subtrees, each before those below it. -/
def walk : SignalTree → List SignalTree
  | node s cs => node s cs :: walkAll cs
/-- All subtrees of several trees. -/
def walkAll : List SignalTree → List SignalTree
  | [] => []
  | t :: rest => t.walk ++ walkAll rest
end

/-- The properties of a node as far as they have been read; each may be given once. -/
structure Properties where
  kind : Option SignalKind := none
  datatype : Option (Option String) := none
  description : Option (Option String) := none
  unit : Option (Option String) := none
  min : Option (Option Json) := none
  max : Option (Option Json) := none
  deprecation : Option (Option String) := none
  children : Option (List SignalTree) := none

/-- The properties in the order in which a list gives them. -/
def propertyNames : List String :=
  ["type", "datatype", "description", "unit", "min", "max", "deprecation", "children"]

/-- A property that is a text or null. -/
def textProperty? : RawJson → Option (Option String)
  | .null => some none
  | .string units => (RawJson.text? units).map some
  | _ => none

/-- A property that is any value, null standing for none. -/
def valueProperty? (depth : Nat) : RawJson → Option (Option Json)
  | .null => some none
  | raw => (raw.valueAt? depth).map some

/-- The kind of a node: a word, or an object with the word as its only key and null under it. -/
def kindProperty? (depth : Nat) : RawJson → Option SignalKind
  | .string units => (RawJson.text? units).map SignalKind.ofText
  | .object [(units, .null)] =>
    if depth = 0 then none else (RawJson.text? units).map SignalKind.ofText
  | _ => none

namespace Properties

/-- Sets the children, unless they were given before. -/
def setChildren (ps : Properties) (children : List SignalTree) : Option Properties :=
  if ps.children.isSome then none else some { ps with children := some children }

/-- Sets a property other than the children. A property given twice is refused. -/
def set (ps : Properties) (depth : Nat) (key : String) (raw : RawJson) : Option Properties :=
  match key with
  | "type" =>
    if ps.kind.isSome then none else (kindProperty? depth raw).map ({ ps with kind := some · })
  | "datatype" =>
    if ps.datatype.isSome then none
    else (textProperty? raw).map ({ ps with datatype := some · })
  | "description" =>
    if ps.description.isSome then none
    else (textProperty? raw).map ({ ps with description := some · })
  | "unit" =>
    if ps.unit.isSome then none else (textProperty? raw).map ({ ps with unit := some · })
  | "min" =>
    if ps.min.isSome then none else (valueProperty? depth raw).map ({ ps with min := some · })
  | "max" =>
    if ps.max.isSome then none else (valueProperty? depth raw).map ({ ps with max := some · })
  | "deprecation" =>
    if ps.deprecation.isSome then none
    else (textProperty? raw).map ({ ps with deprecation := some · })
  | _ => some ps

/-- The tree with these properties at the end of a path. The kind has to be given. -/
def toTree? (ps : Properties) (name : String) (path : List String) : Option SignalTree :=
  ps.kind.map fun kind =>
    .node
      { name := name
        path := path
        kind := kind
        datatype := ps.datatype.getD none
        description := ps.description.getD none
        unit := ps.unit.getD none
        min := ps.min.getD none
        max := ps.max.getD none
        deprecation := ps.deprecation.getD none }
      (ps.children.getD [])

end Properties

mutual
/-- The tree that a text describes, for a node with the given path, with at most `depth`
levels of brackets. -/
def ofRaw? (depth : Nat) (name : String) (path : List String) : RawJson → Option SignalTree
  | .object fields =>
    if depth = 0 then none
    else (propertiesOf? (depth - 1) path {} fields).bind (·.toTree? name path)
  | .array items =>
    if depth = 0 || items.length + 1 < propertyNames.length then none
    else (listedProperties? (depth - 1) path {} propertyNames items).bind (·.toTree? name path)
  | _ => none
/-- The properties that the fields of an object give. -/
def propertiesOf? (depth : Nat) (path : List String) (ps : Properties) :
    List (List Nat × RawJson) → Option Properties
  | [] => some ps
  | (key, raw) :: rest => do
    let key ← RawJson.text? key
    let ps ←
      if key = "children" then (childrenOf? depth path raw).bind ps.setChildren
      else ps.set depth key raw
    propertiesOf? depth path ps rest
/-- The properties that a list gives in their fixed order. -/
def listedProperties? (depth : Nat) (path : List String) (ps : Properties) (names : List String) :
    List RawJson → Option Properties
  | [] => some ps
  | raw :: rest =>
    match names with
    | [] => none
    | key :: names => do
      let ps ←
        if key = "children" then (childrenOf? depth path raw).bind ps.setChildren
        else ps.set depth key raw
      listedProperties? depth path ps names rest
/-- The trees that an object describes under their names. A repeated name keeps its first
place and takes its last tree. -/
def childrenOf? (depth : Nat) (path : List String) : RawJson → Option (List SignalTree)
  | .object fields =>
    if depth = 0 then none
    else (namedTrees? (depth - 1) path fields).map fun trees => (Table.ofList trees).values
  | _ => none
/-- The trees of the fields with their names. -/
def namedTrees? (depth : Nat) (path : List String) :
    List (List Nat × RawJson) → Option (List (String × SignalTree))
  | [] => some []
  | (key, raw) :: rest => do
    let key ← RawJson.text? key
    let tree ← ofRaw? depth key (path ++ [key]) raw
    let trees ← namedTrees? depth path rest
    some ((key, tree) :: trees)
end

/-- The tree of an export, which has exactly one root. -/
def ofText (source : String) : Except TreeFault SignalTree :=
  match (RawJson.parse? source).bind (childrenOf? RawJson.depthLimit []) with
  | none => .error .text
  | some [] => .error .noRoot
  | some [tree] => .ok tree
  | some _ => .error .manyRoots

/-- Reads the tree of an export from a file. -/
def load (files : Files) (path : String) : Except Fault SignalTree :=
  match files.read path with
  | .error e => .error (.file path e)
  | .ok source =>
    match ofText source with
    | .ok tree => .ok tree
    | .error e => .error (.signalTree path e)

end SignalTree

end SignalSchema
