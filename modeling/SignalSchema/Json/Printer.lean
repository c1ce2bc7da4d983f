import SignalSchema.Json.Basic
import SignalSchema.Decimal.Layout

/-!
# JSON texts

The compact text of a value, without spaces, and the indented text with one field or item
a line. Strings keep all characters except quotes, backslashes and control characters.
-/

namespace SignalSchema.Json

/-- A lower-case hexadecimal digit. -/
def hexDigit (n : Nat) : Char :=
  Nat.digitChar (n % 16)

/-- The characters that stand for one character inside a quoted string. -/
def escapeChar (c : Char) : List Char :=
  if c = '"' then ['\\', '"']
  else if c = '\\' then ['\\', '\\']
  else if c = '\n' then ['\\', 'n']
  else if c = '\r' then ['\\', 'r']
  else if c = '\t' then ['\\', 't']
  else if c.toNat = 8 then ['\\', 'b']
  else if c.toNat = 12 then ['\\', 'f']
  else if c.toNat < 0x20 then
    ['\\', 'u', '0', '0', hexDigit (c.toNat / 16), hexDigit c.toNat]
  else [c]

/-- The characters of a text between quotes. -/
def escape (cs : List Char) : List Char :=
  cs.flatMap escapeChar

/-- A text as a JSON string. -/
def quote (s : String) : String :=
  String.ofList ('"' :: (escape s.toList ++ ['"']))

end Json

/-- The text of a number. -/
def Number.text : Number → String
  | .int n => toString n
  | .double x => Decimal.Layout.json.write x

namespace Json

mutual
/-- The text of a value without spaces. -/
def compact : Json → String
  | .null => "null"
  | .bool true => "true"
  | .bool false => "false"
  | .number n => n.text
  | .string s => quote s
  | .array items => "[" ++ ",".intercalate (compactItems items) ++ "]"
  | .object fields => r"{" ++ ",".intercalate (compactFields fields) ++ r"}"
/-- The texts of the items. -/
def compactItems : List Json → List String
  | [] => []
  | v :: rest => v.compact :: compactItems rest
/-- The texts of the fields. -/
def compactFields : List (String × Json) → List String
  | [] => []
  | (key, v) :: rest => (quote key ++ ":" ++ v.compact) :: compactFields rest
end

/-- A line break and two spaces for every level. -/
def lineBreak (level : Nat) : String :=
  "\n" ++ String.ofList (List.replicate (2 * level) ' ')

/-- Parts between brackets, one a line, indented by one level more than the brackets. -/
def block (opening closing : String) (level : Nat) (parts : List String) : String :=
  if parts.isEmpty then opening ++ closing
  else
    opening ++ lineBreak (level + 1) ++ ("," ++ lineBreak (level + 1)).intercalate parts ++
      lineBreak level ++ closing

mutual
/-- The indented text of a value at a level. -/
def prettyAt (level : Nat) : Json → String
  | .array items => block "[" "]" level (prettyItems (level + 1) items)
  | .object fields => block r"{" r"}" level (prettyFields (level + 1) fields)
  | v => v.compact
/-- The indented texts of the items. -/
def prettyItems (level : Nat) : List Json → List String
  | [] => []
  | v :: rest => v.prettyAt level :: prettyItems level rest
/-- The indented texts of the fields. -/
def prettyFields (level : Nat) : List (String × Json) → List String
  | [] => []
  | (key, v) :: rest => (quote key ++ ": " ++ v.prettyAt level) :: prettyFields level rest
end

/-- The text of a value with one field or item a line, indented by two spaces a level. -/
def pretty (value : Json) : String :=
  value.prettyAt 0

end Json

end SignalSchema
