import SignalSchema.Table
import SignalSchema.Json.Basic

/-!
# Schema documents

A schema in the form that the rest of the library works on, whatever language it was written
in: named types with their fields, and the names of the root operation types.
-/

namespace SignalSchema

/-- A reference to a type, possibly wrapped. -/
inductive TypeExpr where
  | named (name : String)
  | nonNull (inner : TypeExpr)
  | list (inner : TypeExpr)
  deriving DecidableEq, Repr, Inhabited

namespace TypeExpr

/-- The innermost name. -/
def name : TypeExpr → String
  | named n => n
  | nonNull inner => inner.name
  | list inner => inner.name

/-- Whether a list wrapper occurs at some depth. -/
def isList : TypeExpr → Bool
  | named _ => false
  | nonNull inner => inner.isList
  | list _ => true

/-- The reference as it is written. -/
def text : TypeExpr → String
  | named n => n
  | nonNull inner => inner.text ++ "!"
  | list inner => "[" ++ inner.text ++ "]"

end TypeExpr

/-- A directive applied to something, with its arguments as values. -/
structure DirectiveUse where
  name : String
  arguments : Table Json

/-- An input field, or an argument of a field. -/
structure InputValueDef where
  name : String
  description : Option String
  type : TypeExpr
  directives : List DirectiveUse

/-- A field of an object type. -/
structure FieldDef where
  name : String
  description : Option String
  type : TypeExpr
  arguments : List InputValueDef
  directives : List DirectiveUse

/-- What a named type consists of. -/
inductive TypeBody where
  | scalar
  | enum (values : List String)
  | input (fields : List InputValueDef)
  | object (fields : List FieldDef)
  | interface
  | union

/-- The word for a kind of type. -/
def TypeBody.kind : TypeBody → String
  | scalar => "scalar"
  | enum _ => "enum"
  | input _ => "input"
  | object _ => "object"
  | interface => "interface"
  | union => "union"

/-- The definition of a named type. -/
structure TypeDef where
  name : String
  description : Option String
  directives : List DirectiveUse
  body : TypeBody

/-- A schema: its types by name and the names of its root operation types. -/
structure SchemaDocument where
  types : Table TypeDef
  query : Option String
  mutation : Option String
  subscription : Option String

namespace SchemaDocument

/-- The definition entered under a name. -/
def get? (document : SchemaDocument) (name : String) : Option TypeDef :=
  document.types.get? name

/-- The definitions in ascending order of their names. -/
def sortedTypes (document : SchemaDocument) : List TypeDef :=
  document.types.values.mergeSort fun a b => a.name ≤ b.name

/-- Whether every definition is entered under its own name. -/
def KeyedByName (document : SchemaDocument) : Prop :=
  ∀ e ∈ document.types.entries, e.2.name = e.1

end SchemaDocument

end SignalSchema
