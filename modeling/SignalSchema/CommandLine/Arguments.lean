import SignalSchema.Project

/-!
# Arguments of the generator

The arguments name a project and what is to be done with it. Options of the project can stand
before and after the command, where the later one counts, but only once on each side. A misuse
is found before anything is done.
-/

namespace SignalSchema.CommandLine

/-- The names of the commands. -/
inductive CommandName where
  | check
  | dump
  | includes
  | permissions
  | directives
  deriving DecidableEq, Repr

/-- The command with a name. -/
def CommandName.ofText? : String → Option CommandName
  | "check" => some .check
  | "dump" => some .dump
  | "includes" => some .includes
  | "permissions" => some .permissions
  | "directives" => some .directives
  | _ => none

/-- What is to be done with a project. -/
inductive Command where
  | check
  | dump
  | includes
  | permissions
  | directives (treePath : String)
  deriving DecidableEq, Repr

/-- What the arguments ask for. -/
inductive Request where
  | run (project : Project) (command : Command)
  | help
  | version
  | misuse
  deriving Repr

/-- The options that take a value. -/
inductive Setting where
  | schema
  | layer
  | permissions
  | language
  | tree
  deriving DecidableEq, Repr

/-- The values given to options. -/
abbrev Settings := List (Setting × String)

/-- The option with a long name; that of the signal tree belongs to one command. -/
def Setting.ofName? (command : Option CommandName) : List Char → Option Setting
  | ['g', 'r', 'a', 'p', 'h', 'q', 'l'] => some .schema
  | ['l', 'a', 'y', 'e', 'r'] => some .layer
  | ['p', 'e', 'r', 'm', 's'] => some .permissions
  | ['l', 'a', 'n', 'g', 'u', 'a', 'g', 'e'] => some .language
  | ['v', 's', 's'] => if command = some .directives then some .tree else none
  | _ => none

/-- Gives a value to an option. A path is not empty, and no option is given twice. -/
def put (setting : Setting) (value : List Char) (settings : Settings) : Except Request Settings :=
  if (settings.lookup setting).isSome || (value.isEmpty && setting ≠ .language) then .error .misuse
  else .ok ((setting, String.ofList value) :: settings)

/-- Whether an argument is an option and cannot be the value of one. -/
def isOption (argument : String) : Bool :=
  argument.startsWith "-" && argument ≠ "-"

/-- What is left of short options that are written together: nothing, or the language, with its
value if that is joined to it. -/
def readShort (command : Option CommandName) :
    List Char → Except Request (Option (Option (List Char)))
  | [] => .ok none
  | 'v' :: rest => readShort command rest
  | 'h' :: _ => .error .help
  | 'V' :: _ => .error (if command.isNone then .version else .misuse)
  | 'l' :: [] => .ok (some none)
  | 'l' :: '=' :: value => .ok (some (some value))
  | 'l' :: value => .ok (some (some value))
  | _ => .error .misuse

/-- What a long option without a value asks for. -/
def readSwitch (command : Option CommandName) : List Char → Except Request Unit
  | ['v', 'e', 'r', 'b', 'o', 's', 'e'] => .ok ()
  | ['h', 'e', 'l', 'p'] => .error .help
  | ['v', 'e', 'r', 's', 'i', 'o', 'n'] => .error (if command.isNone then .version else .misuse)
  | _ => .error .misuse

/-- An option as it is written: one that asks for something or nothing by itself, or one that
takes a value, which may be joined to it. -/
def readOption (command : Option CommandName) (argument : List Char) :
    Except Request (Option (Setting × Option (List Char))) :=
  match argument with
  | '-' :: '-' :: long =>
    let (name, joined) := long.span (· != '=')
    match Setting.ofName? command name, joined with
    | some setting, [] => .ok (some (setting, none))
    | some setting, _ :: value => .ok (some (setting, some value))
    | none, [] => (readSwitch command name).map fun _ => none
    | none, _ :: _ => .error .misuse
  | _ :: short => (readShort command short).map fun language => language.map (Setting.language, ·)
  | [] => .ok none

/-- Reads options up to the name of a command or, after one, to the end. The result is what was
given and the arguments from the name on. -/
def readOptions (command : Option CommandName) (settings : Settings) :
    List String → Except Request (Settings × List String)
  | [] => .ok (settings, [])
  | argument :: rest =>
    if argument = "--" then if rest.isEmpty then .ok (settings, []) else .error .misuse
    else if !isOption argument then
      if command.isNone then .ok (settings, argument :: rest) else .error .misuse
    else
      match readOption command argument.toList with
      | .error request => .error request
      | .ok none => readOptions command settings rest
      | .ok (some (setting, some value)) =>
        match put setting value settings with
        | .ok settings => readOptions command settings rest
        | .error request => .error request
      | .ok (some (setting, none)) =>
        match rest with
        | [] => .error .misuse
        | value :: rest =>
          if isOption value then .error .misuse
          else
            match put setting value.toList settings with
            | .ok settings => readOptions command settings rest
            | .error request => .error request

/-- The project of the given options. -/
def project (settings : Settings) : Project where
  schemaPath := (settings.lookup .schema).getD Project.standard.schemaPath
  layerPath := (settings.lookup .layer).getD Project.standard.layerPath
  permissionsPath := (settings.lookup .permissions).getD Project.standard.permissionsPath
  language := (settings.lookup .language).getD Project.standard.language

/-- The command of a name with its options. -/
def command? (name : CommandName) (settings : Settings) : Option Command :=
  match name with
  | .check => some .check
  | .dump => some .dump
  | .includes => some .includes
  | .permissions => some .permissions
  | .directives => (settings.lookup .tree).map .directives

/-- What asking for help about some words comes to: at most one, which is a command or help. -/
def helpAbout : List String → Request
  | [] => .help
  | [name] => if name = "help" || (CommandName.ofText? name).isSome then .help else .misuse
  | _ => .misuse

/-- The request that arguments make, or the one that ends their reading. -/
def read (arguments : List String) : Except Request Request := do
  let (before, rest) ← readOptions none [] arguments
  match rest with
  | [] => return .misuse
  | "help" :: words => return helpAbout words
  | name :: rest =>
    match CommandName.ofText? name with
    | none => return .misuse
    | some name =>
      let (after, _) ← readOptions (some name) [] rest
      let settings := after ++ before
      match command? name settings with
      | some command => return .run (project settings) command
      | none => return .misuse

/-- The request that arguments make. -/
def Request.ofArguments (arguments : List String) : Request :=
  match read arguments with
  | .ok request => request
  | .error request => request

end SignalSchema.CommandLine
