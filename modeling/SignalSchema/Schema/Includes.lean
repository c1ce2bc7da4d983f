import SignalSchema.Schema.Basic

/-!
# Includes

The implementation files that the objects of a schema need: those of the bindings behind
their fields, and the generic list implementation where a field without binding occurs in a
list.
-/

namespace SignalSchema.Schema

/-- The file of the generic list implementation of an object. -/
def listInclude (object : String) : String :=
  "list/" ++ ((Text.lower object).map fun c => if c = '_' then '/' else c)

/-- The files that a field of an object needs. A collection needs those of its entries. -/
def fieldIncludes (object : ObjectType) (f : Field) : List String :=
  match f.deploy with
  | some d => d.includePath :: (d.entries?.getD []).map Deploy.Directive.includePath
  | none => if object.isListItem || f.isList then [listInclude object.name] else []

/-- The files that all objects need, in ascending order and each once. -/
def includes (schema : Schema) : List String :=
  let paths := schema.objects.flatMap fun t => t.fields.values.flatMap (fieldIncludes t)
  ((paths.filter (· ≠ "")).mergeSort fun a b => a ≤ b).eraseDups

end SignalSchema.Schema
