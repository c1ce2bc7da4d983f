import SignalSchema.Deploy.Factory
import SignalSchema.Deploy.FlatMap

/-!
# Directives of a layer

The directives that the entries of a flat map resolve to, by qualified name. A slot made
from list items resolves to the list of the directives of its items.
-/

namespace SignalSchema.Deploy

/-- The directive that an entry declares, if any. -/
def Entry.resolve (entry : Entry) : Except Fault (Option Directive) :=
  if entry.isEmpty then .ok none else Directive.ofConfig entry.name entry.config

/-- The directives that several entries declare, in their order. -/
def resolveAll : List Entry → Except Fault (List Directive)
  | [] => .ok []
  | entry :: rest => do
    let first ← entry.resolve
    let others ← resolveAll rest
    .ok (first.toList ++ others)

/-- The list of directives, under the name of the first. -/
def Directive.ofList? : List Directive → Option Directive
  | [] => none
  | d :: rest => some (.list d.name (d :: rest))

/-- The directive of a slot. -/
def Slot.resolve : Slot → Except Fault (Option Directive)
  | .single entry => entry.resolve
  | .many entries => (resolveAll entries).map Directive.ofList?

/-- The directives of a layer by qualified name. -/
abbrev DirectiveMap := Table Directive

namespace DirectiveMap

/-- Enters the directives of the slots one after the other. -/
def addSlots (directives : DirectiveMap) : List (String × Slot) → Except Fault DirectiveMap
  | [] => .ok directives
  | (name, slot) :: rest => do
    match ← slot.resolve with
    | some d => addSlots (directives.insert name d) rest
    | none => addSlots directives rest

/-- The directives of a flat map, in its order. -/
def ofFlatMap (flat : FlatMap) : Except Fault DirectiveMap :=
  addSlots Table.empty flat.slots.entries

end DirectiveMap

end SignalSchema.Deploy
