import SignalSchema.Table

/-!
# Permission registry

Every permission has a number. Numbers are given in the order in which permissions are first
seen and are never given again, so that generated tables stay the same from run to run.
-/

namespace SignalSchema

/-- The numbers of the permissions seen so far. -/
structure Registry where
  table : Table Nat
  /-- The number of the next new permission. -/
  next : Nat
  /-- Whether a number was given since the registry was loaded. -/
  changed : Bool

namespace Registry

/-- The registry of a new project. -/
def empty : Registry where
  table := Table.empty
  next := 0
  changed := false

/-- The registry that goes on from a table; the next number follows the greatest one. -/
def ofTable (table : Table Nat) : Registry where
  table := table
  next := table.values.foldl (fun next id => max next (id + 1)) 0
  changed := false

/-- The number of a permission, if it has one. -/
def get? (registry : Registry) (permission : String) : Option Nat :=
  registry.table.get? permission

/-- The registry in which the permission has a number. -/
def register (registry : Registry) (permission : String) : Registry :=
  if (registry.get? permission).isSome then registry
  else
    { table := registry.table.insert permission registry.next
      next := registry.next + 1
      changed := true }

/-- The number that a permission has, or that it is given when it is registered. -/
def number (registry : Registry) (permission : String) : Nat :=
  (registry.get? permission).getD registry.next

/-- The registry in which all the permissions have numbers, given in their order. -/
def registerAll (registry : Registry) (permissions : List String) : Registry :=
  permissions.foldl register registry

/-- The numbers that the permissions get when they are registered one after the other. -/
def numbers (registry : Registry) : List String → List Nat
  | [] => []
  | permission :: rest =>
    registry.number permission :: (registry.register permission).numbers rest

/-- The number of permissions. -/
def size (registry : Registry) : Nat :=
  registry.table.size

end Registry

end SignalSchema
