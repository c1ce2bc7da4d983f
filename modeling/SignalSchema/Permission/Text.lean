import SignalSchema.Text.Blank
import SignalSchema.Yaml.Document
import SignalSchema.Yaml.Printer

/-!
# Registry texts

The text of a registry lists every permission with its number. Reading one accepts any mapping
of scalars to numbers below `2 ^ 32`; a permission that is listed again keeps its place and
takes the last number. A text without content is the empty table.
-/

namespace SignalSchema.Registry

open Yaml

/-- Whether a scalar stands for a registry without permissions. -/
def isEmptyScalar (tag : Option String) (style : Style) (text : String) : Bool :=
  style == .plain &&
    match tag with
    | none => text.isEmpty || Core.isNull text
    | some tag => if tag == Core.standardTag "null" then Core.isNull text else text.isEmpty

/-- The text of a permission. -/
def permission? : Node Nat → Option String
  | .scalar _ _ text => some text
  | _ => none

/-- A number: without quotes, or in a literal block whose tag says that it is one. -/
def number? : Node Nat → Option Nat
  | .scalar properties style text =>
    let isTagged := properties.tag == some (Core.standardTag "int")
    if style == .plain || (style == .literal && isTagged) then
      (Core.nat? text.toList).filter (· < 0x100000000)
    else none
  | _ => none

/-- A permission and its number. -/
def row? (g : Graph) (entry : Node Nat × Node Nat) : Option (String × Nat) := do
  let permission ← permission? (← g.follow? entry.1)
  let number ← number? (← g.follow? entry.2)
  some (permission, number)

/-- The table of a registry text. -/
def table? (source : String) : Option (Table Nat) :=
  if Text.isBlankText source then some Table.empty
  else do
    match ← Graph.parse? source with
    | none => some Table.empty
    | some g =>
      match g.root with
      | .scalar properties style text =>
        if isEmptyScalar properties.tag style text then some Table.empty else none
      | .mapping _ entries => (entries.mapM (row? g)).map Table.ofList
      | _ => none

/-- The text of a table. -/
def tableText (table : Table Nat) : String :=
  Value.text <| .mapping <| table.entries.map fun (permission, n) =>
    (.string permission, .number (.int n))

end SignalSchema.Registry
