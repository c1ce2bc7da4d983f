import SignalSchema.Document
import SignalSchema.Decimal.Layout
import SignalSchema.Json.Printer

/-!
# Ranges and permissions

The two directives of a schema that the library understands: `@range` bounds a value and
`@hasPermissions` lists what a client needs to be granted.
-/

namespace SignalSchema

/-- The bounds of a value. -/
structure Range where
  min : Option Double
  max : Option Double
  deriving DecidableEq, Repr

namespace Range

/-- The name of the directive. -/
def directiveName : String := "range"

/-- The bounds that the first `@range` gives, absent when it gives none. -/
def ofDirectives (directives : List DirectiveUse) : Option Range := do
  let directive ← directives.find? (·.name == directiveName)
  let min := (directive.arguments.get? "min").bind Json.double?
  let max := (directive.arguments.get? "max").bind Json.double?
  if min.isNone && max.isNone then none else some ⟨min, max⟩

/-- The bounds as a directive. -/
def display (r : Range) : String :=
  let bound (name : String) (x : Option Double) : List String :=
    (x.map fun x => name ++ ": " ++ Decimal.Layout.bound.write x).toList
  "@range(" ++ ", ".intercalate (bound "min" r.min ++ bound "max" r.max) ++ ")"

end Range

namespace Permissions

/-- The name of the directive. -/
def directiveName : String := "hasPermissions"

/-- The permissions that a value lists: the strings of a list, or a single string. -/
def ofJson : Option Json → List String
  | some (.array items) => items.filterMap Json.string?
  | some (.string s) => [s]
  | _ => []

/-- The permissions that the first `@hasPermissions` lists. -/
def ofDirectives (directives : List DirectiveUse) : Option (List String) :=
  (directives.find? (·.name == directiveName)).map fun directive =>
    ofJson (directive.arguments.get? "permissions")

/-- The permissions as a directive. -/
def display (permissions : List String) : String :=
  "@hasPermissions(permissions: [" ++ ", ".intercalate (permissions.map Json.quote) ++ "])"

end Permissions

end SignalSchema
