import SignalSchema.Deploy.DirectiveMap
import SignalSchema.Frontend
import SignalSchema.Layer.Loader
import SignalSchema.Permission.Declared
import SignalSchema.Permission.File
import SignalSchema.Schema.Builder
import SignalSchema.Schema.Includes
import SignalSchema.Signal.Vehicle

/-!
# Projects

A project names its files and its schema language. Running it loads the deployment layer, reads
the schema, gives numbers to the permissions that the schema declares, and builds the schema
model. Compiling a project also saves its registry; checking it leaves all files as they are.
-/

namespace SignalSchema

open Deploy (FlatMap DirectiveMap)

/-- The files of a project. -/
structure Project where
  schemaPath : String
  layerPath : String
  permissionsPath : String
  language : String
  deriving Repr

/-- The project with the usual file names. -/
def Project.standard : Project where
  schemaPath := "schema.graphql"
  layerPath := "vspec.depl"
  permissionsPath := "permissions.yaml"
  language := "graphql"

/-- What a run of a project yields. -/
structure Output where
  schema : Schema
  flat : FlatMap
  directives : DirectiveMap
  registry : Registry
  /-- Whether the schema declared permissions without a number. -/
  permissionsChanged : Bool
  /-- Whether the run wrote the registry file. -/
  permissionsSaved : Bool

/-- The sizes of an output. -/
structure Stats where
  scalars : Nat
  enums : Nat
  inputs : Nat
  objects : Nat
  deployEntries : Nat
  permissions : Nat
  deriving DecidableEq, Repr

/-- The number of parts of each kind. -/
def Output.stats (output : Output) : Stats where
  scalars := (output.schema.ofKind .scalar).length
  enums := (output.schema.ofKind .enum).length
  inputs := (output.schema.ofKind .input).length
  objects := (output.schema.ofKind .object).length
  deployEntries := output.directives.size
  permissions := output.registry.size

namespace Project

/-- Runs a project; with `persist`, permissions without a number are saved in its registry. -/
def run (project : Project) (persist : Bool) : Filing Output := do
  let layer ← Layer.load (← get) project.layerPath
  let flat := FlatMap.ofTree layer
  let directives ← DirectiveMap.ofFlatMap flat
  let language ← Language.ofName project.language
  let source ←
    match (← get).read project.schemaPath with
    | .ok source => pure source
    | .error e => throw (.file project.schemaPath e)
  let document ← language.read project.schemaPath source
  let registry ← Registry.load (← get) project.permissionsPath
  let registry := registry.update document
  let saved ←
    if persist && registry.changed then registry.save project.permissionsPath else pure false
  let schema ← Schema.build document directives
  return {
    schema := schema
    flat := flat
    directives := directives
    registry := registry
    permissionsChanged := registry.changed
    permissionsSaved := saved }

/-- Runs a project and saves its registry. -/
def compile (project : Project) : Filing Output :=
  project.run true

/-- Runs a project and leaves all files as they are. -/
def check (project : Project) : Filing Output :=
  project.run false

/-- Saves a registry that went on growing after a run. -/
def savePermissions (project : Project) (registry : Registry) : Filing Bool :=
  registry.save project.permissionsPath

end Project

end SignalSchema
