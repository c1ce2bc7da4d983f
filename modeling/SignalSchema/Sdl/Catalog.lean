import SignalSchema.Sdl.Syntax

/-!
# Catalogs of definitions

The definitions of a schema text joined into one catalog: every type with its extensions,
every directive, and the root operation types. Joining fails where two definitions claim the
same name, or an extension finds nothing of its kind to extend.
-/

namespace SignalSchema.Sdl

/-- The joined definitions of a schema text. -/
structure Catalog where
  types : Table TypeDefinition
  directives : Table DirectiveDefinition
  /-- The directives applied to the schema itself. -/
  schemaDirectives : List Directive
  /-- The root operations with their types. -/
  roots : List (String × String)

namespace Catalog

/-- The scalars of the language. -/
def builtinScalars : List String :=
  ["Int", "Float", "String", "Boolean", "ID"]

/-- A scalar of the language as a definition. -/
def builtinScalar (name : String) : TypeDefinition :=
  ⟨name, none, [], .scalar⟩

/-- The directives of the language. -/
def builtinDirectives : List DirectiveDefinition :=
  let conditional : List InputValue := [⟨"if", none, .named "Boolean" true, none, []⟩]
  let selections : List Location :=
    [.executable "FIELD", .executable "FRAGMENT_SPREAD", .executable "INLINE_FRAGMENT"]
  [ ⟨"skip", conditional, false, selections⟩,
    ⟨"include", conditional, false, selections⟩,
    ⟨"deprecated",
      [⟨"reason", none, .named "String" false, some (.string "No longer supported"), []⟩], false,
      [.fieldDefinition, .argumentDefinition, .inputFieldDefinition, .enumValue]⟩,
    ⟨"specifiedBy", [⟨"url", none, .named "String" true, none, []⟩], false, [.scalar]⟩ ]

/-- Whether no name occurs twice. -/
def distinct (names : List String) : Bool :=
  names.eraseDups.length == names.length

/-- The names that the parts of a type have to have of their own. -/
def partNames : TypeContent → List (List String)
  | .scalar => []
  | .object interfaces fields => [interfaces, fields.map (·.name)]
  | .interface interfaces fields => [interfaces, fields.map (·.name)]
  | .union members => [members]
  | .enum values => [values.map (·.name)]
  | .input fields => [fields.map (·.name)]

/-- The content of a type with that of an extension, which has to be of the same kind. -/
def joinContent : TypeContent → TypeContent → Option TypeContent
  | .scalar, .scalar => some .scalar
  | .object is fs, .object is' fs' => some (.object (is ++ is') (fs ++ fs'))
  | .interface is fs, .interface is' fs' => some (.interface (is ++ is') (fs ++ fs'))
  | .union ms, .union ms' => some (.union (ms ++ ms'))
  | .enum vs, .enum vs' => some (.enum (vs ++ vs'))
  | .input fs, .input fs' => some (.input (fs ++ fs'))
  | _, _ => none

/-- The types with one more extension. -/
def extend (types : Table TypeDefinition) (extension : TypeDefinition) :
    Option (Table TypeDefinition) := do
  let base ← types.get? extension.name
  let content ← joinContent base.content extension.content
  some (types.insert extension.name
    { base with directives := base.directives ++ extension.directives, content := content })

/-- The type definitions of a text. -/
def typeDefinitions (ds : List Definition) : List TypeDefinition :=
  ds.filterMap fun
    | .type t => some t
    | _ => none

/-- The type extensions of a text. -/
def typeExtensions (ds : List Definition) : List TypeDefinition :=
  ds.filterMap fun
    | .typeExtension t => some t
    | _ => none

/-- The directive definitions of a text. -/
def directiveDefinitions (ds : List Definition) : List DirectiveDefinition :=
  ds.filterMap fun
    | .directive d => some d
    | _ => none

/-- The schema definitions of a text. -/
def schemaDefinitions (ds : List Definition) : List SchemaDefinition :=
  ds.filterMap fun
    | .schema s => some s
    | _ => none

/-- The schema extensions of a text. -/
def schemaExtensions (ds : List Definition) : List SchemaDefinition :=
  ds.filterMap fun
    | .schemaExtension s => some s
    | _ => none

/-- The types of a text by name: those of the language, those defined, and their extensions
joined to them. -/
def joinTypes (ds : List Definition) : Option (Table TypeDefinition) := do
  let defined := typeDefinitions ds
  if !distinct (builtinScalars ++ defined.map (·.name)) then none
  else
    let known := builtinScalars.map builtinScalar ++ defined
    let types := Table.ofList (known.map fun t => (t.name, t))
    let types ← (typeExtensions ds).foldlM extend types
    if types.values.all fun t => (partNames t.content).all distinct then some types else none

/-- The directives by name: those of the language, which a definition may replace, and those
defined. -/
def joinDirectives (ds : List Definition) : Option (Table DirectiveDefinition) :=
  let defined := directiveDefinitions ds
  if !distinct (defined.map (·.name)) then none
  else some (Table.ofList ((builtinDirectives ++ defined).map fun d => (d.name, d)))

/-- The root operations of a schema without definition: objects with the customary names. -/
def impliedRoots (types : Table TypeDefinition) : List (String × String) :=
  [("query", "Query"), ("mutation", "Mutation"), ("subscription", "Subscription")].filter
    fun (_, name) =>
      match (types.get? name).map TypeDefinition.content with
      | some (.object ..) => true
      | _ => false

/-- The schema definition of a text with its extensions. One that is only implied can be
extended when it has a root operation. -/
def joinSchema (ds : List Definition) (types : Table TypeDefinition) : Option SchemaDefinition := do
  let extensions := schemaExtensions ds
  let base : SchemaDefinition ←
    match schemaDefinitions ds with
    | [] =>
      let roots := impliedRoots types
      if roots.isEmpty && !extensions.isEmpty then none else some ⟨[], roots⟩
    | [s] => some s
    | _ => none
  let roots := base.roots ++ extensions.flatMap (·.roots)
  if distinct (roots.map Prod.fst) then
    some ⟨base.directives ++ extensions.flatMap (·.directives), roots⟩
  else none

/-- The catalog of the definitions of a text. -/
def ofDefinitions? (ds : List Definition) : Option Catalog := do
  let types ← joinTypes ds
  let directives ← joinDirectives ds
  let schema ← joinSchema ds types
  some ⟨types, directives, schema.directives, schema.roots⟩

/-- The types through which a schema answers questions about itself. Fields may refer to them
although no schema text defines them. -/
def introspectionTypes : List (String × TypeContent) :=
  let enumeration (values : List String) : TypeContent := .enum (values.map fun v => ⟨v, []⟩)
  let kinds :=
    ["SCALAR", "OBJECT", "INTERFACE", "UNION", "ENUM", "INPUT_OBJECT", "LIST", "NON_NULL"]
  let typeSystemPlaces :=
    ["SCHEMA", "SCALAR", "OBJECT", "FIELD_DEFINITION", "ARGUMENT_DEFINITION", "INTERFACE", "UNION",
      "ENUM", "ENUM_VALUE", "INPUT_OBJECT", "INPUT_FIELD_DEFINITION"]
  (["__Schema", "__Type", "__Field", "__InputValue", "__EnumValue", "__Directive"].map fun name =>
      (name, .object [] [])) ++
    [ ("__TypeKind", enumeration kinds),
      ("__DirectiveLocation", enumeration (Location.executableNames ++ typeSystemPlaces)) ]

/-- What a type consists of. -/
def content? (catalog : Catalog) (name : String) : Option TypeContent :=
  match catalog.types.get? name with
  | some t => some t.content
  | none => introspectionTypes.lookup name

/-- The type of a root operation. -/
def root? (catalog : Catalog) (operation : String) : Option String :=
  catalog.roots.lookup operation

end Catalog

end SignalSchema.Sdl
