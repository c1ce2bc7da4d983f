import SignalSchema.CommandLine.LayerListing

/-!
# The program

The first argument names one of two programs, the others are its arguments. A run is a pure
function of the files that are known. When it ends in a fault because a file is missing, the
file is looked up and the run starts again; in the end, changed files are written.
-/

open SignalSchema CommandLine

/-- The programs, as functions of the milliseconds passed so far, the arguments and the files. -/
def program? : String → Option (Nat → List String → Files → Outcome × Files)
  | "vss-codegen" => some fun elapsed arguments files => (generate elapsed arguments).run files
  | "deploy2json" => some fun _ arguments files => (listLayer arguments files, files)
  | _ => none

/-- The place of a path below the home directory. -/
def placeOf? (files : Files) (path : String) : Option Files.Place := do
  let pieces ← files.pieces? path
  pieces.foldlM (fun (place : Files.Place) piece =>
    if piece = "" || piece = "." then some place
    else if piece = ".." then if place.isEmpty then none else some place.dropLast
    else some (place ++ [piece])) []

/-- What is at a path. What cannot be read counts as missing. -/
def entryAt (path : String) : IO (Option FileEntry) := do
  if ← ((← IO.currentDir) / path).isDir then return some .directory
  else
    try
      let bytes ← IO.FS.readBinFile path
      return some (match String.fromUTF8? bytes with | some text => .text text | none => .binary)
    catch _ => return none

/-- The files with what is at a path, if that was not known. -/
def lookUp? (files : Files) (path : String) : IO (Option Files) := do
  match placeOf? files path with
  | none => return none
  | some place =>
    if place.isEmpty || (files.at? place).isSome then return none
    else return (← entryAt (files.fullPath place)).map (files.enter place ·)

/-- The path of the file that a run missed. -/
def missedPath? (outcome : Outcome) : Option String :=
  match outcome.fault with
  | some (.file path .notFound) => some path
  | some (.includeNotFound path) => some path
  | _ => none

/-- Runs a program until no file is missing that could be found. The result holds the files before
and after the last run. -/
partial def runWith (run : Nat → Files → Outcome × Files) (start : Nat) (files : Files) :
    IO (Outcome × Files × Files) := do
  let (outcome, after) := run ((← IO.monoMsNow) - start) files
  match missedPath? outcome with
  | none => return (outcome, files, after)
  | some path =>
    match ← lookUp? files path with
    | none => return (outcome, files, after)
    | some files => runWith run start files

/-- Writes the entries that a run has changed. -/
def store (before after : Files) : IO Unit := do
  for (name, entry) in after.entries.entries do
    if before.entries.get? name ≠ some entry then
      let path := after.home ++ "/" ++ name
      match entry with
      | .directory => IO.FS.createDirAll path
      | .text content =>
        let sibling := path ++ ".new"
        IO.FS.writeFile sibling content
        IO.FS.rename sibling path
      | .binary => pure ()

/-- The registry that a request works on. -/
def registryPath? (arguments : List String) : Option String :=
  match Request.ofArguments arguments with
  | .run project _ => some project.permissionsPath
  | _ => none

def main (arguments : List String) : IO UInt32 := do
  let name := arguments.head?.getD ""
  match program? name with
  | none =>
    IO.eprintln "usage: vss-codegen ... | deploy2json <layer.depl> [--flat]"
    return 2
  | some run =>
    let arguments := arguments.drop 1
    let files := Files.empty (← IO.currentDir).toString
    let files ←
      match if name = "vss-codegen" then registryPath? arguments else none with
      | some path => pure ((← lookUp? files path).getD files)
      | none => pure files
    let start ← IO.monoMsNow
    let (outcome, before, after) ← runWith (fun elapsed => run elapsed arguments) start files
    for line in outcome.lines do
      IO.println line
    store before after
    match outcome.fault with
    | some fault =>
      IO.eprintln ("Error: " ++ fault.message)
      match fault.help? with
      | some help => IO.eprintln ("  help: " ++ help)
      | none => pure ()
    | none => pure ()
    return outcome.status.toUInt32
