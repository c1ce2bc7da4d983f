/-!
# Decimal digits

The number that decimal digits denote.
-/

namespace SignalSchema.Decimal

/-- The value of decimal digits, the most significant first. -/
def digitsValue (cs : List Char) : Nat :=
  cs.foldl (fun n c => 10 * n + (c.toNat - '0'.toNat)) 0

end SignalSchema.Decimal
