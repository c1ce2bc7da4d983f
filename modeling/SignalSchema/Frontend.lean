import SignalSchema.Sdl.Lowering

/-!
# Schema languages

A schema is written in a language that has a name and file extensions. There is one, which
is known under two names.
-/

namespace SignalSchema

/-- A language that schemas are written in. -/
inductive Language where
  | graphql
  deriving DecidableEq, Repr

namespace Language

/-- The name of a language. -/
def name : Language → String
  | graphql => "graphql"

/-- The extensions of files in a language. -/
def extensions : Language → List String
  | graphql => ["graphql", "gql"]

/-- The language with a name. -/
def ofName (name : String) : Except Fault Language :=
  if name = "graphql" || name = "gql" then .ok graphql else .error (.unsupportedLanguage name)

/-- Reads the schema of a file with the given path. -/
def read (language : Language) (path source : String) : Except Fault SchemaDocument :=
  match language with
  | graphql =>
    match Sdl.document? source with
    | some document => .ok document
    | none => .error (.schemaText path)

end Language

end SignalSchema
