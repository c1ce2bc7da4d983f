import SignalSchema.Deploy.DirectiveMap
import SignalSchema.Schema.ListItems
import SignalSchema.Schema.Names

/-!
# Building schemas

A schema is built from a document and the directives of a layer. All names are registered
first, so that fields can refer to types in any order. Then the fields of the input types and
of the objects are resolved. The objects receive their fields one after the other in the order
of their names, and with them the marks that depend on the graph: which types are held in
lists, which objects are entry points and which are list items. A mark may reach an object
before it has fields, while it receives them, or afterwards.
-/

namespace SignalSchema

open Deploy (Directive DirectiveMap)

/-- A type's own directive and those of its fields. -/
def allDirectives (own : Option Directive) (ofFields : List (Option Directive)) :
    Option (List Directive) :=
  match own.toList ++ ofFields.filterMap id with
  | [] => none
  | ds => some ds

/-- An input type with the given fields. -/
def InputType.withFields (t : InputType) (fields : List InputField) : InputType :=
  let table := Table.ofList (fields.map fun f => (f.name, f))
  { t with
    fields := table
    allDeploy := allDirectives t.deploy (table.values.map (·.deploy)) }

/-- The fields of an object that are read from an attribute of the parent. -/
def parentAttributes (fields : Table Field) : Option (Table TypeRef) :=
  let entries := fields.entries.filterMap fun (name, f) =>
    match f.deploy with
    | some (.parentAttribute ..) => some (name, f.type)
    | _ => none
  if entries.isEmpty then none else some (Table.ofList entries)

/-- An object with the given fields. -/
def ObjectType.withFields (t : ObjectType) (fields : List Field) : ObjectType :=
  let table := Table.ofList (fields.map fun f => (f.name, f))
  { t with
    fields := table
    allDeploy := allDirectives t.deploy (table.values.map (·.deploy))
    localAttributes := parentAttributes table }

namespace Schema

/-- The root operation that a type serves. -/
def rootKind? (document : SchemaDocument) (name : String) : Option RootKind :=
  if document.query = some name then some .query
  else if document.mutation = some name then some .mutation
  else if document.subscription = some name then some .subscription
  else none

/-- A type without its fields. Interfaces and unions have no place in a schema. -/
def register (document : SchemaDocument) (directives : DirectiveMap) (definition : TypeDef) :
    Except Fault NamedType :=
  let name := definition.name
  let permissions := Permissions.ofDirectives definition.directives
  match definition.body with
  | .scalar => .ok (.scalar ⟨name, definition.description, false⟩)
  | .enum values => .ok (.enum ⟨name, definition.description, values, false⟩)
  | .input _ =>
    .ok (.input
      { name := name
        description := definition.description
        fields := Table.empty
        deploy := directives.get? name
        allDeploy := none
        permissions := permissions
        range := Range.ofDirectives definition.directives
        isListItem := false
        isList := false })
  | .object _ =>
    .ok (.object
      { name := name
        description := definition.description
        fields := Table.empty
        deploy := directives.get? name
        allDeploy := none
        permissions := permissions
        root := rootKind? document name
        isEntryPoint := false
        isListItem := false
        isList := false
        localAttributes := none })
  | .interface => .error (.unsupportedType name TypeBody.interface.kind)
  | .union => .error (.unsupportedType name TypeBody.union.kind)

/-- The schema in which all types have their places and none has fields. -/
def registerAll (document : SchemaDocument) (directives : DirectiveMap) : Except Fault Schema := do
  let types ← document.sortedTypes.mapM (register document directives)
  .ok (types.foldl push empty)

/-- The reference that an expression stands for, where `parent` is the type it occurs in. -/
def resolveType (schema : Schema) (parent : String) : TypeExpr → Except Fault TypeRef
  | .named name =>
    match schema.lookup? name with
    | some id => .ok (.named id)
    | none => .error (.unresolvedType name parent)
  | .nonNull inner => (resolveType schema parent inner).map TypeRef.nonNull
  | .list inner => (resolveType schema parent inner).map TypeRef.list

/-- The directive of a field: that of the first candidate of its name below the prefix. -/
def findDirective? (directives : DirectiveMap) (above field : String) : Option Directive :=
  (nameCandidates field).findSome? fun candidate => directives.get? (above ++ "_" ++ candidate)

/-- The permissions of a field: its own, followed by those of its type. Only the bare name of
a type hands its permissions on. -/
def fieldPermissions (schema : Schema) (directives : List DirectiveUse) (type : TypeRef) :
    Option (List String) :=
  let inherited : Option (List String) :=
    match type with
    | .named id =>
      match (schema.get? id).bind NamedType.permissions with
      | some (p :: rest) => some (p :: rest)
      | _ => none
    | _ => none
  match Permissions.ofDirectives directives, inherited with
  | some own, some more => some (own ++ more)
  | none, some more => some more
  | own, none => own

/-- An input field or an argument. -/
def inputField (schema : Schema) (directives : DirectiveMap) (above parent : String)
    (definition : InputValueDef) : Except Fault InputField := do
  let type ← resolveType schema parent definition.type
  .ok
    { name := definition.name
      description := definition.description
      type := type
      target := type.target
      deploy := findDirective? directives above definition.name
      permissions := fieldPermissions schema definition.directives type
      range := Range.ofDirectives definition.directives
      isList := definition.type.isList }

/-- A reference to an attribute of the parent that names none takes the field's first
candidate. -/
def nameAttribute (field : String) : Directive → Directive
  | .parentAttribute name none => .parentAttribute name (nameCandidates field).head?
  | d => d

/-- A field of an object, its arguments in ascending order of their names. -/
def objectField (schema : Schema) (directives : DirectiveMap) (parent : String)
    (definition : FieldDef) : Except Fault Field := do
  let type ← resolveType schema parent definition.type
  let sorted := definition.arguments.mergeSort fun a b => a.name ≤ b.name
  let arguments ← sorted.mapM (inputField schema directives parent parent)
  .ok
    { name := definition.name
      description := definition.description
      type := type
      target := type.target
      arguments := Table.ofList (arguments.map fun a => (a.name, a))
      deploy :=
        (findDirective? directives parent definition.name).map (nameAttribute definition.name)
      permissions := fieldPermissions schema definition.directives type
      range := Range.ofDirectives definition.directives
      isList := definition.type.isList }

/-- The ending of the names of input types that does not occur in a layer. -/
def inputSuffix : String := "_Input"

/-- The name under which the fields of an input type are looked up. -/
def inputPrefix (name : String) : String :=
  if name.endsWith inputSuffix then (name.dropEnd inputSuffix.length).toString else name

/-- The fields that a document declares for an input type, absent where it declares none
under the name. -/
def inputFieldDefs? (document : SchemaDocument) (name : String) : Option (List InputValueDef) :=
  match (document.get? name).map TypeDef.body with
  | some (.input fields) => some fields
  | _ => none

/-- The fields that a document declares for an object, absent where it declares none under the
name. -/
def objectFieldDefs? (document : SchemaDocument) (name : String) : Option (List FieldDef) :=
  match (document.get? name).map TypeDef.body with
  | some (.object fields) => some fields
  | _ => none

/-- An input type with the fields that a document declares for it. -/
def fillInput (document : SchemaDocument) (directives : DirectiveMap) (schema : Schema)
    (t : InputType) : Except Fault InputType :=
  match inputFieldDefs? document t.name with
  | some defs => do
    let fields ← defs.mapM (inputField schema directives (inputPrefix t.name) t.name)
    .ok (t.withFields fields)
  | none => .ok t

/-- The schema with the fields of its input types. -/
def fillInputs (document : SchemaDocument) (directives : DirectiveMap) (schema : Schema) :
    Except Fault Schema := do
  let types ← schema.types.mapM fun t =>
    match t with
    | .input t => (fillInput document directives schema t).map .input
    | t => .ok t
  .ok { schema with types := types }

/-- The fields that an object is to receive. -/
structure Supply where
  /-- The position of the object. -/
  id : TypeId
  fields : List Field

/-- The types that the fields hold lists of. -/
def Supply.held (supply : Supply) : List TypeId :=
  (supply.fields.filter (·.isList)).map (·.target)

/-- The objects for which a document declares fields, with their positions. -/
def declaredObjects (document : SchemaDocument) (schema : Schema) :
    List (TypeId × String × List FieldDef) :=
  schema.types.zipIdx.filterMap fun (t, id) =>
    t.object?.bind fun o => (objectFieldDefs? document o.name).map fun defs => (id, o.name, defs)

/-- The fields of all objects. References are resolved by the names and the permissions of the
types, which are known as soon as all types are registered. -/
def supplies (document : SchemaDocument) (directives : DirectiveMap) (schema : Schema) :
    Except Fault (List Supply) :=
  (declaredObjects document schema).mapM fun (id, name, defs) => do
    let fields ← defs.mapM (objectField schema directives name)
    .ok ⟨id, fields⟩

/-- Marks a type that some field holds a list of. -/
def markList (schema : Schema) (id : TypeId) : Schema :=
  (schema.modify id NamedType.markList).markListItem id

/-- Marks a type that a field of the query root leads to. -/
def markEntryPoint (schema : Schema) (id : TypeId) : Schema :=
  schema.modifyObject id fun t => { t with isEntryPoint := true }

/-- Whether there is the query root at a position. -/
def isQueryRoot (schema : Schema) (id : TypeId) : Bool :=
  (schema.objectAt? id).any (·.root == some .query)

/-- Gives an object its fields. The types that they hold lists of are marked first. -/
def receive (schema : Schema) (supply : Supply) : Schema :=
  let schema := supply.held.foldl markList schema
  let schema := schema.modifyObject supply.id (·.withFields supply.fields)
  if schema.isQueryRoot supply.id then
    (schema.successors supply.id).foldl markEntryPoint schema
  else schema

/-- Gives an object its fields and hands on the mark that it has by then. A mark that it gets
later is handed on when it gets it. -/
def connect (schema : Schema) (supply : Supply) : Schema :=
  let schema := schema.receive supply
  if schema.isListItem supply.id then
    (schema.successors supply.id).foldl markListItem schema
  else schema

/-- Builds the schema of a document, backed by the directives of a layer. -/
def build (document : SchemaDocument) (directives : DirectiveMap) : Except Fault Schema := do
  let registered ← registerAll document directives
  let schema ← fillInputs document directives registered
  let supplies ← supplies document directives registered
  .ok (supplies.foldl connect schema)

end Schema

end SignalSchema
