import SignalSchema.Permission.Registry
import SignalSchema.Schema.Annotations

/-!
# Declared permissions

The permissions that a document declares at the fields of its objects and input types, in
the order in which they are registered: types by name, fields as declared.
-/

namespace SignalSchema

namespace TypeBody

/-- The directives at each field of an object or an input type. -/
def fieldDirectives : TypeBody → List (List DirectiveUse)
  | object fields => fields.map FieldDef.directives
  | input fields => fields.map InputValueDef.directives
  | _ => []

end TypeBody

namespace SchemaDocument

/-- All permissions declared at fields, in order of registration. -/
def declaredPermissions (document : SchemaDocument) : List String :=
  document.sortedTypes.flatMap fun definition =>
    definition.body.fieldDirectives.flatMap fun directives =>
      (Permissions.ofDirectives directives).getD []

end SchemaDocument

/-- The registry in which all permissions that a document declares have numbers. -/
def Registry.update (registry : Registry) (document : SchemaDocument) : Registry :=
  registry.registerAll document.declaredPermissions

end SignalSchema
