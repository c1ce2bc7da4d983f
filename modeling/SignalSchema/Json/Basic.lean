import SignalSchema.Decimal.Double

/-!
# JSON values

JSON values whose objects list their fields in order. An object that is made of entries keeps one
field for each name.
-/

namespace SignalSchema

/-- A JSON number: an integer of at most 64 bits, or a double. -/
inductive Number where
  | int (value : Int)
  | double (value : Double)
  deriving DecidableEq, Repr

/-- A JSON value. -/
inductive Json where
  | null
  | bool (value : Bool)
  | number (value : Number)
  | string (value : String)
  | array (items : List Json)
  | object (fields : List (String × Json))
  deriving Repr, Inhabited

/-- The double nearest to a number. -/
def Number.toDouble : Number → Double
  | .int n => Double.ofInt n
  | .double x => x

/-- Whether a number is zero. -/
def Number.isZero : Number → Bool
  | .int n => n == 0
  | .double x => x.isZero

namespace Json

/-- The fields of an object. -/
def fields? : Json → Option (List (String × Json))
  | .object fields => some fields
  | _ => none

/-- The items of an array. -/
def items? : Json → Option (List Json)
  | .array items => some items
  | _ => none

/-- The text of a string. -/
def string? : Json → Option String
  | .string s => some s
  | _ => none

/-- A number as a double. -/
def double? : Json → Option Double
  | .number n => some n.toDouble
  | _ => none

/-- The value under `key` in a list of fields. -/
def field? (fields : List (String × Json)) (key : String) : Option Json :=
  fields.lookup key

/-- The value under `key`, when the value is an object. -/
def get? (value : Json) (key : String) : Option Json :=
  value.fields?.bind (field? · key)

/-- The text under `key` in a list of fields, if there is a string. -/
def stringField? (fields : List (String × Json)) (key : String) : Option String :=
  (field? fields key).bind string?

/-- The fields after `key` was given a value: in its old place if it has one, at the end
otherwise. -/
def putField (key : String) (v : Json) : List (String × Json) → List (String × Json)
  | [] => [(key, v)]
  | e :: rest => if e.1 = key then (key, v) :: rest else e :: putField key v rest

/-- The object that results from giving the keys their values one after the other. -/
def objectOf (entries : List (String × Json)) : Json :=
  .object (entries.foldl (fun fields e => putField e.1 e.2 fields) [])

/-- An absent value is null. -/
def ofOption : Option Json → Json
  | some v => v
  | none => .null

/-- A natural number as a value. -/
def ofNat (n : Nat) : Json :=
  .number (.int n)

end Json

end SignalSchema
