import SignalSchema.Permission.Registry
import SignalSchema.Schema.Annotations
import SignalSchema.Signal.Node

/-!
# Directives of signals

The directives that a signal gets when it is written as a field of a schema: its range and
the permission to read it.
-/

namespace SignalSchema

/-- A directive to be written. -/
structure WrittenDirective where
  name : String
  arguments : List (String × Json)

namespace WrittenDirective

mutual
/-- A value as an argument of a directive: like JSON, but with spaces after commas and
colons and without quotes around the names of fields. -/
def valueText : Json → String
  | .array items => "[" ++ ", ".intercalate (itemTexts items) ++ "]"
  | .object fields => r"{" ++ ", ".intercalate (fieldTexts fields) ++ r"}"
  | v => v.compact
/-- The items as arguments. -/
def itemTexts : List Json → List String
  | [] => []
  | v :: rest => valueText v :: itemTexts rest
/-- The fields as arguments. -/
def fieldTexts : List (String × Json) → List String
  | [] => []
  | (key, v) :: rest => (key ++ ": " ++ valueText v) :: fieldTexts rest
end

/-- The directive as it is written in a schema. -/
def display (d : WrittenDirective) : String :=
  "@" ++ d.name ++ "(" ++
    ", ".intercalate (d.arguments.map fun (name, v) => name ++ ": " ++ valueText v) ++ ")"

/-- A bound of a signal, unless it is empty. -/
def bound? (name : String) : Option Json → Option (String × Json)
  | none => none
  | some .null => none
  | some (.string s) => if s.isEmpty then none else some (name, .string s)
  | some v => some (name, v)

/-- The range of a signal, if it has a bound. -/
def range? (signal : Signal) : Option WrittenDirective :=
  match (bound? "min" signal.min).toList ++ (bound? "max" signal.max).toList with
  | [] => none
  | arguments => some ⟨Range.directiveName, arguments⟩

/-- The directive that demands one permission. -/
def requiring (permission : String) : WrittenDirective :=
  ⟨Permissions.directiveName, [("permissions", .array [.string permission])]⟩

end WrittenDirective

/-- The permission for an operation on a signal. -/
def Signal.permission (signal : Signal) (operation : String) : String :=
  signal.qualifiedName "." ++ "_" ++ operation

/-- The operation that fields of a schema demand a permission for. -/
def readOperation : String := "READ"

/-- The directives of a signal. -/
structure SignalDirectives where
  range : Option WrittenDirective
  hasPermissions : Option WrittenDirective

namespace SignalDirectives

/-- No directives at all. -/
def none : SignalDirectives := ⟨.none, .none⟩

/-- The directives in the order in which they are written. -/
def toList (ds : SignalDirectives) : List WrittenDirective :=
  ds.range.toList ++ ds.hasPermissions.toList

/-- Whether there is no directive. -/
def isEmpty (ds : SignalDirectives) : Bool :=
  ds.toList.isEmpty

/-- The directives, each after a blank. -/
def display (ds : SignalDirectives) : String :=
  String.join (ds.toList.map fun d => " " ++ d.display)

/-- The directives of a tree's root. Only leaves have any. -/
def ofTree (tree : SignalTree) : SignalDirectives :=
  if tree.isLeaf then
    { range := WrittenDirective.range? tree.signal
      hasPermissions := some (.requiring (tree.signal.permission readOperation)) }
  else none

end SignalDirectives

/-- The registry in which the permission to read a tree's root has a number, if it is a leaf. -/
def Registry.registerTree (registry : Registry) (tree : SignalTree) : Registry :=
  if tree.isLeaf then registry.register (tree.signal.permission readOperation) else registry

end SignalSchema
