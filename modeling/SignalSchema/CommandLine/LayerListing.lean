import SignalSchema.CommandLine.Generator

/-!
# Listing a layer

A small program for looking at a deployment layer with all its includes: as JSON, or as the
names under which it has entries.
-/

namespace SignalSchema.CommandLine

open Deploy (FlatMap)

/-- The names of a layer's entries. -/
def entryLines (layer : Json) : List String :=
  (FlatMap.ofTree layer).slots.entries.map fun (name, slot) =>
    name ++ if slot.isMany then " (list)" else " (entry)"

/-- Runs the program with the given arguments: a path, and a flag that asks for names. -/
def listLayer (arguments : List String) (files : Files) : Outcome :=
  match arguments with
  | [] => .misuse
  | path :: rest =>
    match Layer.load files path with
    | .error f => .failure [] f
    | .ok layer =>
      .success (if rest.head? = some "--flat" then entryLines layer else [layer.pretty])

end SignalSchema.CommandLine
