import SignalSchema.Decimal.Digits
import SignalSchema.Decimal.Double
import SignalSchema.Sdl.Catalog

/-!
# Values of types

When a constant value fits a type. A value that is no list fits a list type if it fits the
items, and any value fits a scalar that the schema declares itself.
-/

namespace SignalSchema.Sdl

/-- The integer that decimal digits after an optional minus sign denote. -/
def integerValue (text : String) : Int :=
  match text.toList with
  | '-' :: digits => -(Decimal.digitsValue digits : Int)
  | digits => Decimal.digitsValue digits

/-- The double nearest to a number as it is written. -/
def doubleValue (text : String) : Double :=
  let (negative, cs) :=
    match text.toList with
    | '-' :: cs => (true, cs)
    | cs => (false, cs)
  let (whole, rest) := cs.span Char.isDigit
  let (fraction, rest) :=
    match rest with
    | '.' :: rest => rest.span Char.isDigit
    | rest => ([], rest)
  let exponent : Int :=
    match rest with
    | _ :: '-' :: digits => -(Decimal.digitsValue digits : Int)
    | _ :: '+' :: digits => Decimal.digitsValue digits
    | _ :: digits => Decimal.digitsValue digits
    | [] => 0
  Double.ofDecimal negative (Decimal.digitsValue (whole ++ fraction)) (exponent - fraction.length)

namespace Catalog

/-- Whether a type is a scalar that the schema declares itself. -/
def isCustomScalar (catalog : Catalog) (name : String) : Bool :=
  match catalog.content? name with
  | some .scalar => !builtinScalars.contains name
  | _ => false

/-- The names and fields of an input type. -/
def inputFields? (catalog : Catalog) (name : String) : Option (List InputValue) :=
  match catalog.content? name with
  | some (.input fields) => some fields
  | _ => none

/-- Whether an enumeration has a value. -/
def hasEnumValue (catalog : Catalog) (name value : String) : Bool :=
  match catalog.content? name with
  | some (.enum values) => values.any (·.name == value)
  | _ => false

/-- Whether a type can be that of a value which is given. -/
def isInputType (catalog : Catalog) (name : String) : Bool :=
  match catalog.content? name with
  | some .scalar => true
  | some (.enum _) => true
  | some (.input _) => true
  | _ => false

/-- Whether a type can be that of a field of an object. -/
def isOutputType (catalog : Catalog) (name : String) : Bool :=
  match catalog.content? name with
  | some (.input _) => false
  | some _ => true
  | none => false

mutual
/-- Whether a value fits a type. -/
def fits (catalog : Catalog) (type : TypeReference) : Value → Bool
  | .null => !type.required
  | .int text =>
    catalog.isCustomScalar type.name || type.name == "ID" ||
      (type.name == "Int" && -0x80000000 ≤ integerValue text && integerValue text < 0x80000000) ||
      (type.name == "Float" && (doubleValue text).isFinite)
  | .float text =>
    catalog.isCustomScalar type.name || (type.name == "Float" && (doubleValue text).isFinite)
  | .string _ => catalog.isCustomScalar type.name || ["String", "ID"].contains type.name
  | .bool _ => catalog.isCustomScalar type.name || type.name == "Boolean"
  | .enum value => catalog.isCustomScalar type.name || catalog.hasEnumValue type.name value
  | .list items =>
    if type.isList || catalog.isCustomScalar type.name then
      catalog.isInputType type.name && allFit catalog type.item items
    else false
  | .object fields =>
    if catalog.isCustomScalar type.name then true
    else
      match catalog.inputFields? type.name with
      | none => false
      | some defs =>
        (fields.all fun f => defs.any (·.name == f.1)) &&
          (defs.all fun d =>
            !(d.type.required && d.default.isNone) || fields.any (·.1 == d.name)) &&
          fieldsFit catalog defs [] fields
/-- Whether all values fit a type. -/
def allFit (catalog : Catalog) (type : TypeReference) : List Value → Bool
  | [] => true
  | v :: rest => fits catalog type v && allFit catalog type rest
/-- Whether the values of fields fit their types; of a repeated field the first value counts. -/
def fieldsFit (catalog : Catalog) (defs : List InputValue) (seen : List String) :
    List (String × Value) → Bool
  | [] => true
  | (name, v) :: rest =>
    (seen.contains name ||
        match defs.find? (·.name == name) with
        | some d => fits catalog d.type v
        | none => true) &&
      fieldsFit catalog defs (name :: seen) rest
end

end Catalog

end SignalSchema.Sdl
