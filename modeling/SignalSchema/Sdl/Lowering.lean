import SignalSchema.Fault
import SignalSchema.Sdl.Parser
import SignalSchema.Sdl.Validation

/-!
# Documents from schema texts

A valid schema text becomes a document. The scalars of the language that the schema does not
refer to are left out, except for those that introspection needs.
-/

namespace SignalSchema.Sdl

/-- A finite double as a JSON number; no other number is one. -/
def Value.ofDouble (x : Double) : Json :=
  if x.isFinite then .number (.double x) else .null

mutual
/-- A value as JSON. Values of enumerations become strings, and an integer of more than 64 bits
becomes a double. -/
def Value.lower : Value → Json
  | .null => .null
  | .bool b => .bool b
  | .int text =>
    let n := integerValue text
    if -0x8000000000000000 ≤ n && n < 0x8000000000000000 then .number (.int n)
    else Value.ofDouble (doubleValue text)
  | .float text => Value.ofDouble (doubleValue text)
  | .string s => .string s
  | .enum name => .string name
  | .list items => .array (lowerItems items)
  | .object fields => Json.objectOf (lowerFields fields)
/-- The items of a list as JSON. -/
def lowerItems : List Value → List Json
  | [] => []
  | v :: rest => v.lower :: lowerItems rest
/-- The fields of an object as JSON. -/
def lowerFields : List (String × Value) → List (String × Json)
  | [] => []
  | (name, v) :: rest => (name, v.lower) :: lowerFields rest
end

/-- A directive in use. -/
def Directive.lower (d : Directive) : DirectiveUse :=
  ⟨d.name, Table.ofList (lowerFields d.arguments)⟩

/-- An input field or an argument. -/
def InputValue.lower (i : InputValue) : InputValueDef :=
  ⟨i.name, i.description, i.type.lower, i.directives.map Directive.lower⟩

/-- A field of an object. -/
def FieldDefinition.lower (f : FieldDefinition) : FieldDef :=
  ⟨f.name, f.description, f.type.lower, f.arguments.map InputValue.lower,
    f.directives.map Directive.lower⟩

/-- A type. The directives at interfaces and unions are of no use later on. -/
def TypeDefinition.lower (t : TypeDefinition) : TypeDef :=
  let directives := t.directives.map Directive.lower
  match t.content with
  | .scalar => ⟨t.name, t.description, directives, .scalar⟩
  | .object _ fields =>
    ⟨t.name, t.description, directives, .object (fields.map FieldDefinition.lower)⟩
  | .enum values => ⟨t.name, t.description, directives, .enum (values.map (·.name))⟩
  | .input fields => ⟨t.name, t.description, directives, .input (fields.map InputValue.lower)⟩
  | .interface .. => ⟨t.name, t.description, [], .interface⟩
  | .union _ => ⟨t.name, t.description, [], .union⟩

namespace Catalog

/-- The names of types that fields, arguments and input fields refer to. -/
def referredTypes (catalog : Catalog) : List String :=
  let ofInputs (inputs : List InputValue) : List String := inputs.map (·.type.name)
  let ofFields (fields : List FieldDefinition) : List String :=
    fields.flatMap fun f => f.type.name :: ofInputs f.arguments
  catalog.directives.values.flatMap (fun d => ofInputs d.arguments) ++
    catalog.types.values.flatMap fun t =>
      match t.content with
      | .object _ fields => ofFields fields
      | .interface _ fields => ofFields fields
      | .input fields => ofInputs fields
      | _ => []

/-- The catalog as a document. -/
def lower (catalog : Catalog) : SchemaDocument :=
  let referred := catalog.referredTypes
  let kept := catalog.types.values.filter fun t =>
    !(["Int", "Float", "ID"].contains t.name) || referred.contains t.name
  { types := Table.ofList (kept.map fun t => (t.name, t.lower))
    query := catalog.root? "query"
    mutation := catalog.root? "mutation"
    subscription := catalog.root? "subscription" }

end Catalog

/-- The document of a schema text, none if the text is not a valid schema. -/
def document? (source : String) : Option SchemaDocument := do
  let definitions ← Parser.parse? source
  let catalog ← Catalog.ofDefinitions? definitions
  if catalog.isValid then some catalog.lower else none

end SignalSchema.Sdl
