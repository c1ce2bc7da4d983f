import SignalSchema.Files.Basic
import SignalSchema.Json.Printer

/-!
# Faults

Everything that can make a compilation fail, by its cause. A fault has one message, the code
under which diagnostics list it, and for some a hint.
-/

namespace SignalSchema

/-- The ways to reach a signal, in the order in which they are declared. -/
inductive MethodKind where
  | subscribe
  | read
  | write
  deriving DecidableEq, Repr

/-- The key of a method. -/
def MethodKind.text : MethodKind → String
  | .subscribe => "subscribe"
  | .read => "read"
  | .write => "write"

/-- What is wrong with the payload of a deploy directive. -/
inductive Malformation where
  | versionRange (version : Number)
  | versionText (text : String)
  | versionType
  | bindingType (payload : Json)
  | stringExpected (key : String) (payload : Json)
  | methodsType
  | methodType (kind : MethodKind)
  | parentAttributeType
  | dispatcherType
  | optionsType
  | optionType
  deriving Repr

/-- The wording of a malformation. -/
def Malformation.message : Malformation → String
  | .versionRange n => "version " ++ n.text ++ " out of range"
  | .versionText text => "invalid version '" ++ text ++ "'"
  | .versionType => "_francaIDL.version expects str, int or float"
  | .bindingType payload => "JSON value is not an object: " ++ payload.compact
  | .stringExpected key payload => "'" ++ key ++ "' expects a string, got " ++ payload.compact
  | .methodsType => "methods expects a JSON object"
  | .methodType kind => "methods." ++ kind.text ++ " expects a JSON object"
  | .parentAttributeType => "_parentAttribute expects a string or null"
  | .dispatcherType => "_dispatcher expects a JSON object"
  | .optionsType => "_dispatcher.options expects a list"
  | .optionType => "dispatcher option expects a JSON object"

/-- What is wrong with an export of the signal tree. -/
inductive TreeFault where
  | text
  | noRoot
  | manyRoots
  deriving DecidableEq, Repr

/-- The wording of a fault in a signal tree. -/
def TreeFault.message : TreeFault → String
  | .text => "not a signal tree"
  | .noRoot => "VSS export has no root node"
  | .manyRoots => "VSS export has more than one root node"

/-- Why a compilation failed. Every fault is fatal. -/
inductive Fault where
  | file (path : String) (error : FileError)
  | schemaText (path : String)
  | layerText (path : String)
  | includePath (path : String)
  | includeNotFound (path : String)
  | includeCycle (path : String)
  | registryText (path : String)
  | unsupportedType (name kind : String)
  | unresolvedType (name parent : String)
  | malformed (entry : String) (reason : Malformation)
  | missingKey (entry key : String)
  | unknownKey (entry key : String)
  | signalTree (path : String) (fault : TreeFault)
  | unsupportedLanguage (language : String)
  deriving Repr

namespace Fault

/-- The wording of a fault. -/
def message : Fault → String
  | file path error => "Failed to access file '" ++ path ++ "': " ++ error.message
  | schemaText path => "Failed to parse GraphQL schema '" ++ path ++ "'"
  | layerText path => "Failed to parse deployment layer '" ++ path ++ "'"
  | includePath path =>
    "Failed to parse deployment layer '" ++ path ++ "': !include expects a file path"
  | includeNotFound path => "Included layer file not found: " ++ path
  | includeCycle path => "Layer include cycle through '" ++ path ++ "'"
  | registryText path => "Failed to parse permissions registry '" ++ path ++ "'"
  | unsupportedType name kind => "Unsupported named type '" ++ name ++ "' (" ++ kind ++ ")"
  | unresolvedType name parent => "Unresolved type reference '" ++ name ++ "' in '" ++ parent ++ "'"
  | malformed entry reason => "Malformed deploy entry '" ++ entry ++ "': " ++ reason.message
  | missingKey entry key => "Deploy entry '" ++ entry ++ "' is missing required key '" ++ key ++ "'"
  | unknownKey entry key => "Unknown deploy key '" ++ key ++ "' in entry '" ++ entry ++ "'"
  | signalTree path fault => "Failed to read VSS tree '" ++ path ++ "': " ++ fault.message
  | unsupportedLanguage language => "Unsupported schema language: " ++ language

/-- The code of a fault in diagnostics. -/
def code : Fault → String
  | file .. => "vss::io::error"
  | schemaText .. => "vss::parse::schema"
  | layerText .. => "vss::parse::layer"
  | includePath .. => "vss::parse::layer"
  | includeNotFound .. => "vss::parse::include_not_found"
  | includeCycle .. => "vss::parse::include_cycle"
  | registryText .. => "vss::permissions::parse"
  | unsupportedType .. => "vss::schema::unsupported_type"
  | unresolvedType .. => "vss::schema::unresolved_type"
  | malformed .. => "vss::deploy::malformed"
  | missingKey .. => "vss::deploy::missing_key"
  | unknownKey .. => "vss::deploy::unknown_key"
  | signalTree .. => "vss::tree::parse"
  | unsupportedLanguage .. => "vss::frontend::unsupported_language"

/-- A hint on how to mend the cause. -/
def help? : Fault → Option String
  | includeNotFound .. => some "!include paths are resolved relative to the including file"
  | registryText .. =>
    some "The registry must be a flat YAML mapping of permission string to integer id"
  | unsupportedType .. => some "Unions and interfaces cannot be expressed in the resolver model"
  | unresolvedType .. =>
    some "Every referenced type must be a scalar, enum, input or object declared in the schema"
  | malformed .. => some "Is some layer (deploy) missing entries?"
  | unknownKey .. =>
    some "Known keys: _constants, _defaultValue, _dispatcher, _francaIDL, _parentAttribute, _custom"
  | _ => none

end Fault

end SignalSchema
