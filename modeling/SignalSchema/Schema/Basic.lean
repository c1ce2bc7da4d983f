import SignalSchema.Deploy.Directive
import SignalSchema.Schema.Annotations

/-!
# Schemas

The model of a schema: named types in ascending order of their names, referred to by their
position, which is also found by the name and listed by the kind of a type. Types never contain
each other, so graphs of objects may be cyclic.
-/

namespace SignalSchema

open Deploy (Directive)

/-- The position of a type in its schema. -/
abbrev TypeId := Nat

/-- A reference to a type of the schema, possibly wrapped. -/
inductive TypeRef where
  | named (id : TypeId)
  | nonNull (inner : TypeRef)
  | list (inner : TypeRef)
  deriving DecidableEq, Repr

/-- The type behind all wrappers. -/
def TypeRef.target : TypeRef → TypeId
  | named id => id
  | nonNull inner => inner.target
  | list inner => inner.target

/-- A root operation. -/
inductive RootKind where
  | query
  | mutation
  | subscription
  deriving DecidableEq, Repr

/-- The word for a root operation. -/
def RootKind.text : RootKind → String
  | query => "query"
  | mutation => "mutation"
  | subscription => "subscription"

/-- The kinds of types in a schema, in the order in which they are listed. -/
inductive TypeKind where
  | scalar
  | enum
  | input
  | object
  deriving DecidableEq, Repr

/-- All kinds in order. -/
def TypeKind.all : List TypeKind :=
  [scalar, enum, input, object]

/-- The word for a kind of types. -/
def TypeKind.text : TypeKind → String
  | scalar => "scalar"
  | enum => "enum"
  | input => "input"
  | object => "object"

/-- A scalar type. -/
structure ScalarType where
  name : String
  description : Option String
  /-- Whether some field of an object holds a list of it. -/
  isList : Bool

namespace ScalarType

/-- Whether the scalar is declared by the schema and not by the language. -/
def isCustom (t : ScalarType) : Bool :=
  !(["Int", "Float", "String", "Boolean", "ID"].contains t.name)

/-- Whether the scalar is one of the sized integers. -/
def isInteger (t : ScalarType) : Bool :=
  ["Int8", "Int16", "Int32", "UInt8", "UInt16"].contains t.name

/-- Whether values of the scalar are texts: all are that are not numbers or truth values. -/
def isString (t : ScalarType) : Bool :=
  !(t.isInteger || ["Float", "Int", "Boolean"].contains t.name)

end ScalarType

/-- An enumeration. -/
structure EnumType where
  name : String
  description : Option String
  values : List String
  isList : Bool

/-- A field of an input type, or an argument of an object's field. -/
structure InputField where
  name : String
  description : Option String
  type : TypeRef
  /-- The type behind all wrappers. -/
  target : TypeId
  deploy : Option Directive
  permissions : Option (List String)
  range : Option Range
  isList : Bool

/-- A field of an object. -/
structure Field where
  name : String
  description : Option String
  type : TypeRef
  /-- The type behind all wrappers. -/
  target : TypeId
  /-- The arguments in ascending order of their names. -/
  arguments : Table InputField
  deploy : Option Directive
  permissions : Option (List String)
  range : Option Range
  isList : Bool

/-- An input type. -/
structure InputType where
  name : String
  description : Option String
  fields : Table InputField
  deploy : Option Directive
  /-- The type's own directive and those of its fields; absent when there are none. -/
  allDeploy : Option (List Directive)
  permissions : Option (List String)
  range : Option Range
  /-- Whether it may be an element of a list; only objects are marked as such. -/
  isListItem : Bool
  isList : Bool

/-- An object type. -/
structure ObjectType where
  name : String
  description : Option String
  fields : Table Field
  deploy : Option Directive
  /-- The type's own directive and those of its fields; absent when there are none. -/
  allDeploy : Option (List Directive)
  permissions : Option (List String)
  root : Option RootKind
  /-- Whether a field of the query root leads to it. -/
  isEntryPoint : Bool
  /-- Whether it may be an element of a list, possibly through other objects. -/
  isListItem : Bool
  isList : Bool
  /-- The fields that are read from an attribute of the parent, with their types. -/
  localAttributes : Option (Table TypeRef)

/-- A type of a schema. -/
inductive NamedType where
  | scalar (t : ScalarType)
  | enum (t : EnumType)
  | input (t : InputType)
  | object (t : ObjectType)

namespace NamedType

/-- The name of a type. -/
def name : NamedType → String
  | scalar t => t.name
  | enum t => t.name
  | input t => t.name
  | object t => t.name

/-- The kind of a type. -/
def kind : NamedType → TypeKind
  | scalar _ => .scalar
  | enum _ => .enum
  | input _ => .input
  | object _ => .object

/-- The permissions that every field of the type takes over. -/
def permissions : NamedType → Option (List String)
  | input t => t.permissions
  | object t => t.permissions
  | _ => none

/-- Whether some field of an object holds a list of the type. -/
def isList : NamedType → Bool
  | scalar t => t.isList
  | enum t => t.isList
  | input t => t.isList
  | object t => t.isList

/-- The type as one that some field of an object holds a list of. -/
def markList : NamedType → NamedType
  | scalar t => scalar { t with isList := true }
  | enum t => enum { t with isList := true }
  | input t => input { t with isList := true }
  | object t => object { t with isList := true }

/-- The object that a type is. -/
def object? : NamedType → Option ObjectType
  | object t => some t
  | _ => none

/-- The type with a change to what it is as an object. -/
def mapObject (f : ObjectType → ObjectType) : NamedType → NamedType
  | object t => object (f t)
  | t => t

end NamedType

/-- The positions of the types of each kind, in the order of their registration. -/
structure Sections where
  scalars : List TypeId
  enums : List TypeId
  inputs : List TypeId
  objects : List TypeId

namespace Sections

/-- The sections of a schema without types. -/
def empty : Sections where
  scalars := []
  enums := []
  inputs := []
  objects := []

/-- The positions of the types of a kind. -/
def ofKind (sections : Sections) : TypeKind → List TypeId
  | .scalar => sections.scalars
  | .enum => sections.enums
  | .input => sections.inputs
  | .object => sections.objects

/-- The sections with one more position, at the end of the section of its kind. -/
def push (sections : Sections) (id : TypeId) : TypeKind → Sections
  | .scalar => { sections with scalars := sections.scalars ++ [id] }
  | .enum => { sections with enums := sections.enums ++ [id] }
  | .input => { sections with inputs := sections.inputs ++ [id] }
  | .object => { sections with objects := sections.objects ++ [id] }

end Sections

/-- A schema: its types, and their positions by name and by kind. -/
structure Schema where
  types : List NamedType
  ids : Table TypeId
  sections : Sections

namespace Schema

/-- The type at a position. -/
def get? (schema : Schema) (id : TypeId) : Option NamedType :=
  schema.types[id]?

/-- The position of the type with a name. -/
def lookup? (schema : Schema) (name : String) : Option TypeId :=
  schema.ids.get? name

/-- The type with a name. -/
def byName? (schema : Schema) (name : String) : Option NamedType :=
  (schema.lookup? name).bind schema.get?

/-- The types of a kind, in ascending order of their names. -/
def ofKind (schema : Schema) (kind : TypeKind) : List NamedType :=
  (schema.sections.ofKind kind).filterMap schema.get?

/-- The objects in ascending order of their names. -/
def objects (schema : Schema) : List ObjectType :=
  schema.types.filterMap NamedType.object?

/-- The number of types. -/
def size (schema : Schema) : Nat :=
  schema.types.length

/-- The schema without types. -/
def empty : Schema where
  types := []
  ids := Table.empty
  sections := Sections.empty

/-- The schema with one more type, which takes the next position. -/
def push (schema : Schema) (t : NamedType) : Schema where
  types := schema.types ++ [t]
  ids := schema.ids.insert t.name schema.size
  sections := schema.sections.push schema.size t.kind

/-- The object at a position. -/
def objectAt? (schema : Schema) (id : TypeId) : Option ObjectType :=
  (schema.get? id).bind NamedType.object?

/-- Whether there is an object at a position. -/
def isObject (schema : Schema) (id : TypeId) : Bool :=
  (schema.objectAt? id).isSome

/-- Whether there is an object at a position that is marked as a list item. -/
def isListItem (schema : Schema) (id : TypeId) : Bool :=
  (schema.objectAt? id).any (·.isListItem)

/-- The types that the fields of an object lead to; none for what is no object. -/
def successors (schema : Schema) (id : TypeId) : List TypeId :=
  match schema.objectAt? id with
  | some t => t.fields.values.map (·.target)
  | none => []

/-- The schema with a change to the type at a position. -/
def modify (schema : Schema) (id : TypeId) (f : NamedType → NamedType) : Schema :=
  { schema with types := schema.types.modify id f }

/-- The schema with a change to the object at a position; other types stay as they are. -/
def modifyObject (schema : Schema) (id : TypeId) (f : ObjectType → ObjectType) : Schema :=
  schema.modify id (NamedType.mapObject f)

/-- A change reaches the type at its position and no other. -/
theorem get?_modify (schema : Schema) (id j : TypeId) (f : NamedType → NamedType) :
    (schema.modify id f).get? j = if id = j then (schema.get? j).map f else schema.get? j := by
  simp only [get?, modify, List.getElem?_modify]
  split
  · rfl
  · simp

/-- A change to an object reaches the object at its position and no other. -/
theorem objectAt?_modifyObject (schema : Schema) (id j : TypeId) (f : ObjectType → ObjectType) :
    (schema.modifyObject id f).objectAt? j =
      if id = j then (schema.objectAt? j).map f else schema.objectAt? j := by
  simp only [objectAt?, modifyObject, get?_modify]
  split
  · cases schema.get? j with
    | none => rfl
    | some t => cases t <;> rfl
  · rfl

/-- What no change to a type can alter is the same after a change. -/
theorem map_types_modify {β : Type} (schema : Schema) (id : TypeId) {f : NamedType → NamedType}
    {view : NamedType → β} (h : ∀ t, view (f t) = view t) :
    (schema.modify id f).types.map view = schema.types.map view := by
  apply List.ext_getElem?
  intro j
  simp only [modify, List.getElem?_map, List.getElem?_modify]
  cases schema.types[j]? with
  | none => rfl
  | some t => by_cases hj : id = j <;> simp [hj, h]

end Schema

end SignalSchema
