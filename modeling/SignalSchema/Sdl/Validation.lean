import SignalSchema.Sdl.Values

/-!
# Valid catalogs

The rules that a catalog has to meet before it is used: names are not reserved, references
lead to types of the right kind, types are not empty, interfaces are implemented, input types
can be given a value, and directives are used as they are defined.
-/

namespace SignalSchema.Sdl

namespace Catalog

/-! ### Names and references -/

/-- Names that start with two underscores are reserved. -/
def isFreeName (name : String) : Bool :=
  !name.startsWith "__"

/-! ### Directives in use -/

/-- Whether a use of a directive is as its definition allows at a place. -/
def validUse (catalog : Catalog) (place : Location) (use : Directive) : Bool :=
  match catalog.directives.get? use.name with
  | none => false
  | some definition =>
    definition.locations.contains place &&
      distinct (use.arguments.map Prod.fst) &&
      (use.arguments.all fun (name, v) =>
        match definition.arguments.find? (·.name == name) with
        | some a => catalog.fits a.type v
        | none => false) &&
      (definition.arguments.all fun a =>
        !(a.type.required && a.default.isNone) ||
          match use.arguments.lookup a.name with
          | some .null => false
          | some _ => true
          | none => false)

/-- Whether a directive may be used several times at one place. -/
def isRepeatable (catalog : Catalog) (name : String) : Bool :=
  ((catalog.directives.get? name).map (·.repeatable)).getD false

/-- Whether the directives at a place are used as they are defined. -/
def validUses (catalog : Catalog) (place : Location) (uses : List Directive) : Bool :=
  (uses.all (catalog.validUse place)) &&
    distinct ((uses.map (·.name)).filter fun n => !catalog.isRepeatable n)

/-! ### Fields and arguments -/

/-- Whether input fields or arguments are valid at a place. -/
def validInputs (catalog : Catalog) (place : Location) (inputs : List InputValue) : Bool :=
  distinct (inputs.map (·.name)) &&
    inputs.all fun i =>
      isFreeName i.name && catalog.validUses place i.directives &&
        catalog.isInputType i.type.name

/-- Whether the fields of an object or an interface are valid; there has to be one. -/
def validFields (catalog : Catalog) (fields : List FieldDefinition) : Bool :=
  !fields.isEmpty &&
    fields.all fun f =>
      isFreeName f.name && catalog.validUses .fieldDefinition f.directives &&
        catalog.validInputs .argumentDefinition f.arguments && catalog.isOutputType f.type.name

/-! ### Interfaces -/

/-- The interfaces and fields of an interface. -/
def interface? (catalog : Catalog) (name : String) : Option (List String × List FieldDefinition) :=
  match catalog.content? name with
  | some (.interface interfaces fields) => some (interfaces, fields)
  | _ => none

/-- Whether every value of one type is one of another. -/
def isSubtype (catalog : Catalog) (sub super : String) : Bool :=
  sub == super ||
    match catalog.content? super with
    | some (.union members) => members.contains sub
    | some (.interface ..) =>
      match catalog.content? sub with
      | some (.object interfaces _) => interfaces.contains super
      | some (.interface interfaces _) => interfaces.contains super
      | _ => false
    | _ => false

/-- Whether a field's type can stand in for that of an interface's field. -/
def isCovariant (catalog : Catalog) : TypeReference → TypeReference → Bool
  | .named sub required, .named super required' =>
    (required || !required') && catalog.isSubtype sub super
  | .list item required, .list item' required' =>
    (required || !required') && isCovariant catalog item item'
  | _, _ => false

/-- Whether a field implements a field of an interface. -/
def implementsField (catalog : Catalog) (field declared : FieldDefinition) : Bool :=
  catalog.isCovariant field.type declared.type &&
    (declared.arguments.all fun a =>
      field.arguments.any fun b => b.name == a.name && b.type = a.type) &&
    (field.arguments.all fun b =>
      declared.arguments.any (·.name == b.name) || !(b.type.required && b.default.isNone))

/-- Whether a type with the given interfaces and fields implements an interface and all that
the interface implements. -/
def implementsInterface (catalog : Catalog) (interfaces : List String)
    (fields : List FieldDefinition) (name : String) : Bool :=
  match catalog.interface? name with
  | none => false
  | some (above, declared) =>
    (above.all interfaces.contains) &&
      declared.all fun d =>
        match fields.find? (·.name == d.name) with
        | some f => catalog.implementsField f d
        | none => false

/-! ### Cycles -/

/-- The input types that every value of an input type has to contain a value of. -/
def requiredInputs (catalog : Catalog) (name : String) : List String :=
  ((catalog.inputFields? name).getD []).filterMap fun f =>
    match f.type with
    | .named n true => if (catalog.inputFields? n).isSome then some n else none
    | _ => none

/-- The names that can be reached in at most `fuel` steps. -/
def reach (step : String → List String) : Nat → List String → List String
  | 0, names => names
  | fuel + 1, names =>
    let more := (names.flatMap step).filter fun n => !names.contains n
    if more.isEmpty then names else reach step fuel (names ++ more.eraseDups)

/-- Whether a name can be reached from itself. -/
def isCyclic (step : String → List String) (bound : Nat) (name : String) : Bool :=
  (reach step bound (step name).eraseDups).contains name

/-- The directives and input types that the definition of a directive or an input type rests
on. A directive is told apart by its mark. -/
def restsOn (catalog : Catalog) (name : String) : List String :=
  let marks (ds : List Directive) : List String := ds.map fun d => "@" ++ d.name
  let ofInputs (inputs : List InputValue) : List String :=
    inputs.flatMap fun i => marks i.directives ++ [i.type.name]
  if name.startsWith "@" then
    match catalog.directives.get? (name.drop 1).toString with
    | some d => ofInputs d.arguments
    | none => []
  else
    match catalog.types.get? name with
    | none => []
    | some t =>
      marks t.directives ++
        match t.content with
        | .enum values => values.flatMap fun v => marks v.directives
        | .input fields => ofInputs fields
        | _ => []

/-! ### Definitions -/

/-- Whether a directive definition is valid. It must not rest on itself. -/
def validDirective (catalog : Catalog) (d : DirectiveDefinition) : Bool :=
  isFreeName d.name && catalog.validInputs .argumentDefinition d.arguments &&
    !isCyclic catalog.restsOn (catalog.types.size + catalog.directives.size + 1) ("@" ++ d.name)

/-- The place of directives at a type. -/
def placeOf : TypeContent → Location
  | .scalar => .scalar
  | .object .. => .object
  | .interface .. => .interface
  | .union _ => .union
  | .enum _ => .enum
  | .input _ => .inputObject

/-- Whether what a type consists of is valid. -/
def validContent (catalog : Catalog) (name : String) : TypeContent → Bool
  | .scalar => true
  | .object interfaces fields =>
    catalog.validFields fields && interfaces.all (catalog.implementsInterface interfaces fields)
  | .interface interfaces fields =>
    catalog.validFields fields && !interfaces.contains name &&
      interfaces.all (catalog.implementsInterface interfaces fields)
  | .union members =>
    !members.isEmpty &&
      members.all fun m =>
        match catalog.content? m with
        | some (.object ..) => true
        | _ => false
  | .enum values =>
    !values.isEmpty &&
      values.all fun v => isFreeName v.name && catalog.validUses .enumValue v.directives
  | .input fields =>
    !fields.isEmpty && catalog.validInputs .inputFieldDefinition fields &&
      !isCyclic catalog.requiredInputs (catalog.types.size + 1) name

/-- Whether a type is valid. -/
def validType (catalog : Catalog) (t : TypeDefinition) : Bool :=
  isFreeName t.name && catalog.validUses (placeOf t.content) t.directives &&
    catalog.validContent t.name t.content

/-- Whether the root operations have an object each and not two the same; requests need a
query. -/
def validRoots (catalog : Catalog) : Bool :=
  (catalog.root? "query").isSome && distinct (catalog.roots.map Prod.snd) &&
    catalog.roots.all fun (_, name) =>
      match catalog.content? name with
      | some (.object ..) => true
      | _ => false

/-- Whether a catalog meets all rules. -/
def isValid (catalog : Catalog) : Bool :=
  catalog.validRoots && catalog.validUses .schema catalog.schemaDirectives &&
    catalog.directives.values.all catalog.validDirective &&
    catalog.types.values.all catalog.validType

end Catalog

end SignalSchema.Sdl
