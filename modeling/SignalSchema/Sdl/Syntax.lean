import SignalSchema.Document

/-!
# Syntax of the schema language

The definitions that a schema text consists of, before types and extensions are joined.
-/

namespace SignalSchema.Sdl

/-- A constant value. Numbers are kept as they are written. -/
inductive Value where
  | null
  | bool (value : Bool)
  | int (text : String)
  | float (text : String)
  | string (value : String)
  | enum (name : String)
  | list (items : List Value)
  | object (fields : List (String × Value))
  deriving Inhabited

/-- A reference to a type as it is written: a name or a list, each possibly required. -/
inductive TypeReference where
  | named (name : String) (required : Bool)
  | list (item : TypeReference) (required : Bool)
  deriving DecidableEq, Repr, Inhabited

namespace TypeReference

/-- The innermost name. -/
def name : TypeReference → String
  | named n _ => n
  | list item _ => item.name

/-- Whether null is excluded. -/
def required : TypeReference → Bool
  | named _ r => r
  | list _ r => r

/-- Whether the reference is to a list. -/
def isList : TypeReference → Bool
  | named .. => false
  | list .. => true

/-- The type of a list's items; a name stands for itself. -/
def item : TypeReference → TypeReference
  | named n r => named n r
  | list item _ => item

/-- The reference as a type expression. -/
def lower : TypeReference → TypeExpr
  | named n false => .named n
  | named n true => .nonNull (.named n)
  | list item false => .list item.lower
  | list item true => .nonNull (.list item.lower)

end TypeReference

/-- A directive in use. -/
structure Directive where
  name : String
  arguments : List (String × Value)

/-- An input field, or an argument of a field or of a directive. -/
structure InputValue where
  name : String
  description : Option String
  type : TypeReference
  default : Option Value
  directives : List Directive

/-- A field of an object or an interface. -/
structure FieldDefinition where
  name : String
  description : Option String
  arguments : List InputValue
  type : TypeReference
  directives : List Directive

/-- A value of an enumeration. -/
structure EnumValue where
  name : String
  directives : List Directive

/-- What a type definition or an extension of it holds. -/
inductive TypeContent where
  | scalar
  | object (interfaces : List String) (fields : List FieldDefinition)
  | interface (interfaces : List String) (fields : List FieldDefinition)
  | union (members : List String)
  | enum (values : List EnumValue)
  | input (fields : List InputValue)

/-- A type definition, or an extension of a type. -/
structure TypeDefinition where
  name : String
  description : Option String
  directives : List Directive
  content : TypeContent

/-- A place where a directive may be used. -/
inductive Location where
  | schema
  | scalar
  | object
  | fieldDefinition
  | argumentDefinition
  | interface
  | union
  | enum
  | enumValue
  | inputObject
  | inputFieldDefinition
  /-- A place in requests, which a schema does not have. -/
  | executable (name : String)
  deriving DecidableEq, Repr

namespace Location

/-- The places in requests. -/
def executableNames : List String :=
  ["QUERY", "MUTATION", "SUBSCRIPTION", "FIELD", "FRAGMENT_DEFINITION", "FRAGMENT_SPREAD",
    "INLINE_FRAGMENT", "VARIABLE_DEFINITION"]

/-- The place with a name. -/
def ofName? : String → Option Location
  | "SCHEMA" => some schema
  | "SCALAR" => some scalar
  | "OBJECT" => some object
  | "FIELD_DEFINITION" => some fieldDefinition
  | "ARGUMENT_DEFINITION" => some argumentDefinition
  | "INTERFACE" => some interface
  | "UNION" => some union
  | "ENUM" => some enum
  | "ENUM_VALUE" => some enumValue
  | "INPUT_OBJECT" => some inputObject
  | "INPUT_FIELD_DEFINITION" => some inputFieldDefinition
  | name => if executableNames.contains name then some (executable name) else none

end Location

/-- The definition of a directive. -/
structure DirectiveDefinition where
  name : String
  arguments : List InputValue
  repeatable : Bool
  locations : List Location

/-- A schema definition or an extension of it: directives and the root operation types. -/
structure SchemaDefinition where
  directives : List Directive
  roots : List (String × String)

/-- A definition of a schema text. -/
inductive Definition where
  | schema (definition : SchemaDefinition)
  | schemaExtension (definition : SchemaDefinition)
  | type (definition : TypeDefinition)
  | typeExtension (definition : TypeDefinition)
  | directive (definition : DirectiveDefinition)

end SignalSchema.Sdl
