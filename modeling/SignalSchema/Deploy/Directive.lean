import SignalSchema.Deploy.Methods
import SignalSchema.Deploy.Version
import SignalSchema.Text.LowerCase

/-!
# Deploy directives

What a field of the schema is backed by: a constant, an attribute of the parent object, a
call to an interface, a custom origin, a choice between alternatives, or a list of those.
-/

namespace SignalSchema.Deploy

/-- A directive under the name of the layer entry that declares it. -/
inductive Directive where
  | constant (name : String) (value : Json)
  | parentAttribute (name : String) (target : Option String)
  | interface (name package service instanceId : String) (version : Version) (methods : Methods)
  | custom (name origin : String) (sharedOrigin sharedAttribute : Bool) (methods : Methods)
  | dispatcher (name selector : String) (options : List Directive)
  | list (name : String) (entries : List Directive)
  deriving Inhabited

/-- The directory of an entry: its name in lower case without the last segment, a slash
between the segments. -/
def includeName (name : String) : String :=
  "/".intercalate ((Text.lower name).splitOn "_").dropLast

namespace Directive

/-- The name of the entry that declares the directive. -/
def name : Directive → String
  | constant n _ => n
  | parentAttribute n _ => n
  | interface n .. => n
  | custom n .. => n
  | dispatcher n .. => n
  | list n _ => n

/-- The word for a kind of directive. -/
def kind : Directive → String
  | constant .. => "constant"
  | parentAttribute .. => "parent_attribute"
  | interface .. => "franca_idl"
  | custom .. => "custom"
  | dispatcher .. => "dispatcher"
  | list .. => "list"

/-- Where the implementation of a binding is found, empty for what is no binding. -/
def includePath : Directive → String
  | interface n .. => "franca/" ++ includeName n
  | custom n origin .. => Text.lowerFirst origin ++ "/" ++ includeName n
  | _ => ""

/-- The directives of a collection. -/
def entries? : Directive → Option (List Directive)
  | dispatcher _ _ options => some options
  | list _ entries => some entries
  | _ => none

/-- Whether the directive is made of others. -/
def isCollection (d : Directive) : Bool :=
  d.entries?.isSome

/-- The methods of a binding. -/
def methods? : Directive → Option Methods
  | interface _ _ _ _ _ ms => some ms
  | custom _ _ _ _ ms => some ms
  | _ => none

/-- Whether the directive can be written to. -/
def hasWriteMethod (d : Directive) : Bool :=
  d.methods?.any (·.write.isSome)

/-- A truth value as text. -/
def boolText (b : Bool) : String :=
  if b then "true" else "false"

mutual
/-- A directive as text. -/
def display : Directive → String
  | constant _ value => "constant(constant=" ++ value.compact ++ ")"
  | parentAttribute _ target => "parent_attribute(attribute=" ++ target.getD "None" ++ ")"
  | interface _ package service instanceId version methods =>
    "franca_idl(package=" ++ package ++ ", interface=" ++ service ++ ", instance_id=" ++
      instanceId ++ ", version=" ++ version.display ++ ", methods=" ++ methods.display ++ ")"
  | custom _ origin sharedOrigin sharedAttribute methods =>
    "custom(origin=" ++ origin ++ ", shared_origin=" ++ boolText sharedOrigin ++
      ", shared_attribute=" ++ boolText sharedAttribute ++ ", methods=" ++ methods.display ++ ")"
  | dispatcher _ selector options =>
    "dispatcher(selector=" ++ selector ++ ", options=[" ++ ", ".intercalate (displayAll options) ++
      "])"
  | list _ entries => "list(" ++ ", ".intercalate (displayAll entries) ++ ")"
/-- The texts of several directives. -/
def displayAll : List Directive → List String
  | [] => []
  | d :: rest => d.display :: displayAll rest
end

end Directive

end SignalSchema.Deploy
