/-!
# Signal names of fields

A field of the schema is written in lower camel case, the signal behind it is not. The
candidates are the plausible spellings of the signal, the most specific first.
-/

namespace SignalSchema

/-- Whether a character is a lower-case letter of ASCII. -/
def isLowerLetter (c : Char) : Bool :=
  'a' ≤ c && c ≤ 'z'

/-- Whether a character is an upper-case letter of ASCII. -/
def isUpperLetter (c : Char) : Bool :=
  'A' ≤ c && c ≤ 'Z'

/-- The characters with the first one in upper case. -/
def titleCase : List Char → List Char
  | [] => []
  | c :: rest => c.toUpper :: rest

/-- The spellings of the signal behind a field. A name that starts in lower case and goes on
with a capital is capitalised; an all lower-case name may also be an acronym or stand for
itself; any other name is taken as it is. -/
def nameCandidates (field : String) : List String :=
  let cs := field.toList
  if (cs.takeWhile isLowerLetter).isEmpty then [field]
  else
    match cs.dropWhile isLowerLetter with
    | [] =>
      [String.ofList (titleCase cs), String.ofList (cs.map Char.toUpper), field]
    | c :: _ => if isUpperLetter c then [String.ofList (titleCase cs)] else [field]

end SignalSchema
