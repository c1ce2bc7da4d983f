import SignalSchema.Sdl.Syntax
import SignalSchema.Sdl.Token

/-!
# Parsing schema texts

Recursive descent over the tokens of a schema text. Only definitions and extensions of the
type system are read; a request is no schema. Every parser takes tokens off the front, and
the number of tokens bounds all repetitions.
-/

namespace SignalSchema.Sdl

/-- A parser of the tokens at the front. -/
abbrev Parser (α : Type) := StateT (List Token) Option α

namespace Parser

/-- The next token, which is left where it is. -/
def peek : Parser (Option Token) := do
  pure (← get).head?

/-- Takes the next token off. -/
def next : Parser Token := fun
  | t :: rest => some (t, rest)
  | [] => none

/-- Takes off the given token. -/
def expect (t : Token) : Parser Unit := do
  if (← next) = t then pure () else failure

/-- Takes off the given token if it is next. -/
def accept (t : Token) : Parser Bool := do
  if (← peek) = some t then
    let _ ← next
    pure true
  else pure false

/-- Takes off a name. -/
def name : Parser String := do
  match ← next with
  | .name s => pure s
  | _ => failure

/-- A string in front of a definition. -/
def description : Parser (Option String) := do
  match ← peek with
  | some (.string s) =>
    let _ ← next
    pure (some s)
  | _ => pure none

/-- Runs a parser until a token follows that closes the sequence, and takes that off. -/
def untilClosed {α : Type} (closing : Token) (p : Parser α) : Nat → Parser (List α)
  | 0 => failure
  | fuel + 1 => do
    if ← accept closing then pure []
    else
      let first ← p
      let rest ← untilClosed closing p fuel
      pure (first :: rest)

/-- One or more items between two tokens. -/
def between {α : Type} (opening closing : Token) (p : Parser α) : Parser (List α) := do
  expect opening
  let first ← p
  let rest ← untilClosed closing p ((← get).length + 1)
  pure (first :: rest)

/-- Items between two tokens if the first of these follows, else no items. -/
def optionally {α : Type} (opening closing : Token) (p : Parser α) : Parser (List α) := do
  if (← peek) = some opening then between opening closing p else pure []

/-- Further items, each after a separator. -/
def moreSeparated {α : Type} (separator : Token) (p : Parser α) : Nat → Parser (List α)
  | 0 => failure
  | fuel + 1 => do
    if ← accept separator then
      let first ← p
      let rest ← moreSeparated separator p fuel
      pure (first :: rest)
    else pure []

/-- One or more items with separators between them and possibly one in front. -/
def separated {α : Type} (separator : Token) (p : Parser α) : Parser (List α) := do
  let _ ← accept separator
  let first ← p
  let rest ← moreSeparated separator p ((← get).length + 1)
  pure (first :: rest)

/-- A reference to a type. The fuel bounds the nesting of lists. -/
def typeReference : Nat → Parser TypeReference
  | 0 => failure
  | fuel + 1 => do
    if ← accept (.mark '[') then
      let item ← typeReference fuel
      expect (.mark ']')
      pure (.list item (← accept (.mark '!')))
    else
      let n ← name
      pure (.named n (← accept (.mark '!')))

/-- A constant value. Variables are none. The fuel bounds the nesting. -/
def value : Nat → Parser Value
  | 0 => failure
  | fuel + 1 => do
    match ← next with
    | .int s => pure (.int s)
    | .float s => pure (.float s)
    | .string s => pure (.string s)
    | .name "true" => pure (.bool true)
    | .name "false" => pure (.bool false)
    | .name "null" => pure .null
    | .name s => pure (.enum s)
    | .mark '[' => do
      let items ← untilClosed (.mark ']') (value fuel) ((← get).length + 1)
      pure (.list items)
    | .mark '{' => do
      let field : Parser (String × Value) := do
        let n ← name
        expect (.mark ':')
        let v ← value fuel
        pure (n, v)
      let fields ← untilClosed (.mark '}') field ((← get).length + 1)
      pure (.object fields)
    | _ => failure

/-- A type reference at any depth that the tokens allow. -/
def type : Parser TypeReference := do
  typeReference ((← get).length + 1)

/-- A value at any depth that the tokens allow. -/
def constant : Parser Value := do
  value ((← get).length + 1)

/-- A directive in use, after its mark. -/
def directive : Parser Directive := do
  expect (.mark '@')
  let n ← name
  let arguments ← optionally (.mark '(') (.mark ')') do
    let key ← name
    expect (.mark ':')
    let v ← constant
    pure (key, v)
  pure ⟨n, arguments⟩

/-- The directives that follow, of which there may be none. -/
def directivesWith : Nat → Parser (List Directive)
  | 0 => failure
  | fuel + 1 => do
    if (← peek) = some (.mark '@') then
      let first ← directive
      let rest ← directivesWith fuel
      pure (first :: rest)
    else pure []

/-- The directives that follow, of which there may be none. -/
def directives : Parser (List Directive) := do
  directivesWith ((← get).length + 1)

/-- An input field or an argument. -/
def inputValue : Parser InputValue := do
  let description ← description
  let n ← name
  expect (.mark ':')
  let t ← type
  let initial ← if ← accept (.mark '=') then some <$> constant else pure none
  let ds ← directives
  pure ⟨n, description, t, initial, ds⟩

/-- The arguments of a field or of a directive definition. -/
def argumentDefinitions : Parser (List InputValue) :=
  optionally (.mark '(') (.mark ')') inputValue

/-- A field of an object or an interface. -/
def fieldDefinition : Parser FieldDefinition := do
  let description ← description
  let n ← name
  let arguments ← argumentDefinitions
  expect (.mark ':')
  let t ← type
  let ds ← directives
  pure ⟨n, description, arguments, t, ds⟩

/-- The fields between braces, if there are braces. -/
def fieldDefinitions : Parser (List FieldDefinition) :=
  optionally (.mark '{') (.mark '}') fieldDefinition

/-- A value of an enumeration, for which some words are reserved. -/
def enumValue : Parser EnumValue := do
  let _ ← description
  let n ← name
  if ["true", "false", "null"].contains n then failure
  else
    let ds ← directives
    pure ⟨n, ds⟩

/-- The interfaces that a type implements. -/
def interfaces : Parser (List String) := do
  if ← accept (.name "implements") then separated (.mark '&') name else pure []

/-- The members of a union. -/
def unionMembers : Parser (List String) := do
  if ← accept (.mark '=') then separated (.mark '|') name else pure []

/-- A type definition, or an extension, after the word for the kind of type. -/
def typeDefinition (word : String) (description : Option String) : Parser TypeDefinition := do
  let n ← name
  match word with
  | "scalar" =>
    let ds ← directives
    pure ⟨n, description, ds, .scalar⟩
  | "type" =>
    let is ← interfaces
    let ds ← directives
    let fields ← fieldDefinitions
    pure ⟨n, description, ds, .object is fields⟩
  | "interface" =>
    let is ← interfaces
    let ds ← directives
    let fields ← fieldDefinitions
    pure ⟨n, description, ds, .interface is fields⟩
  | "union" =>
    let ds ← directives
    let members ← unionMembers
    pure ⟨n, description, ds, .union members⟩
  | "enum" =>
    let ds ← directives
    let values ← optionally (.mark '{') (.mark '}') enumValue
    pure ⟨n, description, ds, .enum values⟩
  | "input" =>
    let ds ← directives
    let fields ← optionally (.mark '{') (.mark '}') inputValue
    pure ⟨n, description, ds, .input fields⟩
  | _ => failure

/-- A root operation with its type. -/
def rootOperation : Parser (String × String) := do
  let operation ← name
  if ["query", "mutation", "subscription"].contains operation then
    expect (.mark ':')
    let n ← name
    pure (operation, n)
  else failure

/-- A directive definition after its first word. -/
def directiveDefinition : Parser DirectiveDefinition := do
  expect (.mark '@')
  let n ← name
  let arguments ← argumentDefinitions
  let repeatable ← accept (.name "repeatable")
  expect (.name "on")
  let locations ← separated (.mark '|') do
    match Location.ofName? (← name) with
    | some l => pure l
    | none => failure
  pure ⟨n, arguments, repeatable, locations⟩

/-- Whether an extension adds something to a type. -/
def addsSomething (t : TypeDefinition) : Bool :=
  !t.directives.isEmpty ||
    match t.content with
    | .scalar => false
    | .object is fields => !is.isEmpty || !fields.isEmpty
    | .interface is fields => !is.isEmpty || !fields.isEmpty
    | .union members => !members.isEmpty
    | .enum values => !values.isEmpty
    | .input fields => !fields.isEmpty

/-- An extension after its first word. An extension has no description and is not empty. -/
def extension : Parser Definition := do
  let word ← name
  if word = "schema" then
    let ds ← directives
    let roots ← optionally (.mark '{') (.mark '}') rootOperation
    if ds.isEmpty && roots.isEmpty then failure else pure (.schemaExtension ⟨ds, roots⟩)
  else
    let t ← typeDefinition word none
    if addsSomething t then pure (.typeExtension t) else failure

/-- A definition. -/
def definition : Parser Definition := do
  let description ← description
  let word ← name
  if word = "schema" then
    let ds ← directives
    let roots ← between (.mark '{') (.mark '}') rootOperation
    pure (.schema ⟨ds, roots⟩)
  else if word = "directive" then return .directive (← directiveDefinition)
  else if word = "extend" then if description.isSome then failure else extension
  else return .type (← typeDefinition word description)

/-- Definitions up to the end of the tokens. -/
def definitions : Nat → Parser (List Definition)
  | 0 => failure
  | fuel + 1 => do
    if (← get).isEmpty then pure []
    else
      let first ← definition
      let rest ← definitions fuel
      pure (first :: rest)

/-- The definitions of a schema text, none if it is not well-formed. -/
def parse? (source : String) : Option (List Definition) := do
  let tokens ← Token.scan? source
  let (ds, _) ← (definitions (tokens.length + 1)).run tokens
  some ds

end Parser

end SignalSchema.Sdl
