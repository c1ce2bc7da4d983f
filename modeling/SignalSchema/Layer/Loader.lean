import SignalSchema.Fault
import SignalSchema.Yaml.Document
import SignalSchema.Yaml.Printer

/-!
# Deployment layers

A layer is the value of a layer text in which every include has been replaced by the layer of
the file that it names, seen from the directory of the including file. A file cannot include
itself, be it through others: the loader keeps the chain of the files that it is in the middle
of, and reports a file that is on the chain already.
-/

namespace SignalSchema.Layer

open Yaml (Value)

/-- The tag of an include. -/
def includeTag : String := "include"

/-- A number of a layer; those that JSON cannot express are null. -/
def number : Number → Json
  | .int n => .number (.int n)
  | .double x => if x.isFinite then .number (.double x) else .null

section Values

variable {m : Type → Type} [Monad m] [MonadExceptOf Fault m]

mutual
/-- The layer of a value in the file `current`, where `splice` gives the layer of an included
path. A key becomes a name; of several entries under one name the last one counts. -/
def ofValue (splice : String → m Json) (current : String) : Value → m Json
  | .null => pure .null
  | .bool value => pure (.bool value)
  | .number n => pure (number n)
  | .string s => pure (.string s)
  | .sequence items => do
    return .array (← ofItems splice current items)
  | .mapping entries => do
    return Json.objectOf (← ofEntries splice current entries)
  | .tagged tag value =>
    if tag = includeTag then
      match value with
      | .string path => splice path
      | _ => throw (.includePath current)
    else ofValue splice current value
/-- The layers of the items. -/
def ofItems (splice : String → m Json) (current : String) : List Value → m (List Json)
  | [] => pure []
  | item :: rest => do
    let item ← ofValue splice current item
    return item :: (← ofItems splice current rest)
/-- The names and layers of the entries. -/
def ofEntries (splice : String → m Json) (current : String) :
    List (Value × Value) → m (List (String × Json))
  | [] => pure []
  | (key, value) :: rest => do
    let value ← ofValue splice current value
    return (key.name, value) :: (← ofEntries splice current rest)
end

end Values

/-- An included path as seen from the home directory. -/
def resolve (current path : String) : String :=
  Path.join ((Path.parent? current).getD "") path

/-- The files as a loader sees them. They are finitely many. -/
structure Sources where
  /-- The full path of the file that a path names. -/
  canonical : String → Except FileError String
  /-- The text of the file with a full path. -/
  read : String → Except FileError String
  /-- The value of a text. -/
  parse? : String → Option Value
  /-- The full paths of the files. -/
  files : List String
  canonical_mem : ∀ {path file}, canonical path = .ok file → file ∈ files

/-- A computation that may fail while it keeps the chain of the files that are being loaded, the
innermost first. It has no outcome when files lie deeper inside each other than it follows. -/
abbrev Loading := ExceptT Fault (StateT (List String) Option)

namespace Loading

/-- Files lie too deep inside each other. -/
def tooDeep {α : Type} : Loading α :=
  ExceptT.lift (StateT.lift none)

/-- Loads something inside a file: the file is on the chain until this is done, or has failed. -/
def inside {α : Type} (file : String) (loading : Loading α) : Loading α := do
  modify (file :: ·)
  let result ← ExceptT.lift loading.run
  modify List.tail
  liftM result

end Loading

namespace Sources

/-- The layer of a file with the text `source`. -/
def ofSource {m : Type → Type} [Monad m] [MonadExceptOf Fault m] (sources : Sources)
    (splice : String → m Json) (current source : String) : m Json :=
  match sources.parse? source with
  | some value => ofValue splice current value
  | none => throw (.layerText current)

/-- The layer of the file at a path. A path that cannot be found is reported by `missing`. The
number bounds how deep files lie inside each other. -/
def loadFile (sources : Sources) : Nat → (FileError → Fault) → String → Loading Json
  | 0, _, _ => Loading.tooDeep
  | bound + 1, missing, path => do
    let file ← (sources.canonical path).mapError missing
    if (← get).any (Path.same file) then throw (.includeCycle file)
    else
      let source ← (sources.read file).mapError (Fault.file file)
      Loading.inside file (sources.ofSource
        (fun relative =>
          let path := resolve file relative
          sources.loadFile bound (fun _ => .includeNotFound path) path)
        file source)

/-- The number of files that can lie inside each other. -/
def chainBound (sources : Sources) : Nat :=
  sources.files.length + 1

/-- What the loader yields for the file `path` when it begins with a chain. Files that lie deeper
inside each other than there are files would include themselves. -/
def outcome (path : String) (loading : Loading Json) (chain : List String) : Except Fault Json :=
  match loading.run chain with
  | some (result, _) => result
  | none => .error (.includeCycle path)

/-- The layer of the file at a path. -/
def load (sources : Sources) (path : String) : Except Fault Json :=
  outcome path (sources.loadFile sources.chainBound (.file path) path) []

end Sources

/-- Files below a home directory as a loader sees them. -/
def sources (files : Files) : Sources where
  canonical path := (files.locate path).map files.fullPath
  read := files.read
  parse? := Value.parse?
  files := files.home :: files.entries.keys.map fun key => files.home ++ "/" ++ key
  canonical_mem := by
    intro path file h
    cases hplace : files.locate path with
    | error e =>
      rw [hplace] at h
      cases h
    | ok place =>
      rw [hplace] at h
      obtain rfl := Except.ok.inj h
      have hat := Files.isSome_at?_of_locate hplace
      cases place with
      | nil => exact List.mem_cons_self
      | cons name rest =>
        refine List.mem_cons_of_mem _ (List.mem_map.2 ⟨Files.Place.key (name :: rest), ?_, ?_⟩)
        · exact Table.isSome_get?_iff.1 hat
        · exact String.intercalate_cons_cons.symm

/-- The layer of the file at a path. -/
def load (files : Files) (path : String) : Except Fault Json :=
  (sources files).load path

/-- The layer of a text whose includes are seen from the directory of `origin`. -/
def ofText (files : Files) (source origin : String) : Except Fault Json :=
  Sources.outcome origin ((sources files).ofSource
    (fun relative =>
      let path := resolve origin relative
      (sources files).loadFile (sources files).chainBound (fun _ => .includeNotFound path) path)
    origin source) [origin]

end SignalSchema.Layer
