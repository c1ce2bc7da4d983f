import SignalSchema.Schema.Basic

/-!
# Schemas as text

One line for a type and one for a field, with everything that is known about them.
-/

namespace SignalSchema

/-- A word that is written after a blank if a condition holds. -/
def wordIf (condition : Bool) (word : String) : String :=
  if condition then " " ++ word else ""

/-- The directive that backs something, in brackets. -/
def deployNote (deploy : Option Deploy.Directive) : String :=
  match deploy with
  | some d => " (deploy: " ++ d.display ++ ")"
  | none => ""

/-- The bounds of a value after a blank. -/
def rangeNote (range : Option Range) : String :=
  match range with
  | some r => " " ++ r.display
  | none => ""

/-- What is known about the values of a field. -/
def qualifiers (isList : Bool) (permissions : Option (List String)) (range : Option Range) :
    String :=
  let granted :=
    match permissions with
    | some (p :: rest) => " " ++ Permissions.display (p :: rest)
    | _ => ""
  wordIf isList "is_list" ++ granted ++ rangeNote range

/-- A type on one line. -/
def NamedType.display : NamedType → String
  | scalar t =>
    "scalar " ++ t.name ++ wordIf t.isCustom "is_custom" ++ wordIf t.isString "is_string" ++
      wordIf t.isInteger "is_integer"
  | enum t => "enum " ++ t.name
  | input t =>
    "input " ++ t.name ++ rangeNote t.range ++ wordIf t.isListItem "is_list_item" ++
      deployNote t.deploy
  | object t =>
    let root :=
      match t.root with
      | some r => " root=" ++ r.text
      | none => ""
    "type " ++ t.name ++ root ++ wordIf t.isEntryPoint "is_entry_point" ++
      wordIf t.localAttributes.isSome "local_attributes" ++ wordIf t.isListItem "is_list_item" ++
      deployNote t.deploy

namespace Schema

/-- A reference with the name of its type, as it is written in a schema. -/
def renderType (schema : Schema) : TypeRef → String
  | .named id => ((schema.get? id).map NamedType.name).getD ""
  | .nonNull inner => schema.renderType inner ++ "!"
  | .list inner => "[" ++ schema.renderType inner ++ "]"

/-- An input field or an argument on one line. -/
def renderInputField (schema : Schema) (f : InputField) : String :=
  f.name ++ ": " ++ schema.renderType f.type ++ qualifiers f.isList f.permissions f.range ++
    deployNote f.deploy

/-- A field on one line, its arguments in brackets after its name. -/
def renderField (schema : Schema) (f : Field) : String :=
  let arguments :=
    if f.arguments.isEmpty then ""
    else "(" ++ ", ".intercalate (f.arguments.values.map schema.renderInputField) ++ ")"
  f.name ++ arguments ++ ": " ++ schema.renderType f.type ++
    qualifiers f.isList f.permissions f.range ++ deployNote f.deploy

/-- The fields of an input type or an object, one a line. -/
def fieldTexts (schema : Schema) : NamedType → List String
  | .input t => t.fields.values.map schema.renderInputField
  | .object t => t.fields.values.map schema.renderField
  | _ => []

end Schema

end SignalSchema
