import SignalSchema.Json.Basic

/-!
# Values of layer texts

What a text means once anchors and aliases are gone. Unlike JSON, a key can be any value, a
number can be infinite, and a value can carry a tag.
-/

namespace SignalSchema.Yaml

/-- A value. -/
inductive Value where
  | null
  | bool (value : Bool)
  | number (value : Number)
  | string (value : String)
  | sequence (items : List Value)
  | mapping (entries : List (Value × Value))
  | tagged (tag : String) (value : Value)
  deriving Inhabited

/-- Whether two numbers are the same key: doubles are compared by value, and NaN is one key. -/
def sameNumber : Number → Number → Bool
  | .int m, .int n => m == n
  | .double x, .double y => x == y || (x.isNaN && y.isNaN) || (x.isZero && y.isZero)
  | _, _ => false

namespace Value

mutual
/-- Whether two values are the same key. The order of a mapping's entries does not matter. -/
def same : Value → Value → Bool
  | .null, .null => true
  | .bool a, .bool b => a == b
  | .number a, .number b => sameNumber a b
  | .string a, .string b => a == b
  | .sequence xs, .sequence ys => sameItems xs ys
  | .mapping xs, .mapping ys => xs.length == ys.length && entriesIn xs ys
  | .tagged a x, .tagged b y => a == b && same x y
  | _, _ => false
/-- Whether two lists hold the same items in the same order. -/
def sameItems : List Value → List Value → Bool
  | [], [] => true
  | x :: xs, y :: ys => same x y && sameItems xs ys
  | _, _ => false
/-- Whether all entries are among those of another mapping. -/
def entriesIn : List (Value × Value) → List (Value × Value) → Bool
  | [], _ => true
  | (key, value) :: rest, ys =>
    (ys.any fun entry => same key entry.1 && same value entry.2) && entriesIn rest ys
end

/-- Whether no two of the keys are the same. -/
def distinct : List Value → Bool
  | [] => true
  | key :: rest => !rest.any (same key) && distinct rest

end Value

end SignalSchema.Yaml
