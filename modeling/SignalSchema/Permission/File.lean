import SignalSchema.Fault
import SignalSchema.Permission.Registry
import SignalSchema.Permission.Text

/-!
# Registry files

A registry is kept in a file. It is loaded at the start of a run, where a missing file counts as
an empty one, and saved when a permission was added. Saving writes a sibling of the file, which
then takes the file's place.
-/

namespace SignalSchema

/-- A computation that works on files. What it has done to them by the time it fails stays done. -/
abbrev Filing := ExceptT Fault (StateM Files)

namespace Registry

/-- The registry kept in the file at a path. -/
def load (files : Files) (path : String) : Except Fault Registry :=
  if files.exists? path then
    match files.read path with
    | .error e => .error (.file path e)
    | .ok source =>
      match table? source with
      | some table => .ok (ofTable table)
      | none => .error (.registryText path)
  else .ok empty

/-- Changes the files by an operation; a failure is reported for the path. -/
def perform (path : String) (operation : Files → Except FileError Files) : Filing Unit := do
  match operation (← get) with
  | .ok files => set files
  | .error e => throw (.file path e)

/-- Saves a registry in the file at a path if a number was given since it was loaded. Tells
whether it was. -/
def save (registry : Registry) (path : String) : Filing Bool := do
  if !registry.changed then return false
  else
    match Path.parent? path with
    | some above =>
      if above ≠ "" then
        perform above fun files => files.makeDirectories above (Path.pieces above).length
    | none => pure ()
    let sibling := Path.withExtension path "tmp"
    perform sibling fun files => files.write sibling (tableText registry.table)
    perform path fun files => files.rename sibling path
    return true

end Registry

end SignalSchema
