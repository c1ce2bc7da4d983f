import SignalSchema.Table
import SignalSchema.Files.Path

/-!
# Files

The state of the files below a home directory as a value. Reading looks at the state, and
writing yields a new one. A path is taken from the home directory unless it starts with the
home directory's own path; nothing outside of it exists.
-/

namespace SignalSchema

/-- Why a file operation failed. -/
inductive FileError where
  | notFound
  | exists
  | notDirectory
  | isDirectory
  | notText
  deriving DecidableEq, Repr

/-- The wording of a file error. -/
def FileError.message : FileError → String
  | .notFound => "No such file or directory (os error 2)"
  | .exists => "File exists (os error 17)"
  | .notDirectory => "Not a directory (os error 20)"
  | .isDirectory => "Is a directory (os error 21)"
  | .notText => "stream did not contain valid UTF-8"

/-- What a path below the home directory names. -/
inductive FileEntry where
  | directory
  | text (content : String)
  /-- A file whose bytes are no text. -/
  | binary
  deriving DecidableEq, Repr

/-- The files below a home directory. -/
structure Files where
  /-- The path of the home directory. -/
  home : String
  /-- What is there, under the path from the home directory. -/
  entries : Table FileEntry

namespace Files

/-- A place below the home directory: the names on the way to it. -/
abbrev Place := List String

/-- The name of a place in the table of entries. -/
def Place.key (place : Place) : String :=
  "/".intercalate place

/-- The full path of a place. -/
def fullPath (files : Files) (place : Place) : String :=
  "/".intercalate (files.home :: place)

/-- What is at a place. -/
def at? (files : Files) (place : Place) : Option FileEntry :=
  if place.isEmpty then some .directory else files.entries.get? place.key

/-- The pieces of a path as seen from the home directory, absent outside of it. -/
def pieces? (files : Files) (path : String) : Option (List String) :=
  let home := Path.pieces files.home
  let ps := Path.pieces path
  if home.isPrefixOf ps then some (ps.drop home.length)
  else if Path.isAbsolute path then none
  else some ps

/-- Follows the pieces of a path from a place. -/
def follow (files : Files) (place : Place) : List String → Except FileError Place
  | [] => .ok place
  | p :: rest =>
    match files.at? place with
    | none => .error .notFound
    | some .directory =>
      if p = "" || p = "." then follow files place rest
      else if p = ".." then
        if place.isEmpty then .error .notFound else follow files place.dropLast rest
      else
        let next := place ++ [p]
        if (files.at? next).isSome then follow files next rest else .error .notFound
    | some _ => .error .notDirectory

/-- Following a path from a place that exists, with all directories on the way, leads to such a
place. -/
theorem isSome_at?_of_follow {files : Files} {start place : Place} {ps : List String}
    (hstart : ∀ above, above <+: start → (files.at? above).isSome = true)
    (h : files.follow start ps = .ok place) :
    ∀ above, above <+: place → (files.at? above).isSome = true := by
  induction ps generalizing start with
  | nil =>
    obtain rfl := Except.ok.inj h
    exact hstart
  | cons p rest ih =>
    rw [follow] at h
    split at h
    next => cases h
    next =>
      split at h
      next => exact ih hstart h
      split at h
      next =>
        split at h
        next => cases h
        exact ih (fun above habove => hstart above (habove.trans (List.dropLast_prefix start))) h
      dsimp only at h
      split at h
      next hnext =>
        refine ih (fun above habove => ?_) h
        rcases List.prefix_concat_iff.1 habove with rfl | habove
        · exact hnext
        · exact hstart above habove
      next => cases h
    next => cases h

/-- The place that an existing path names. -/
def locate (files : Files) (path : String) : Except FileError Place :=
  if path = "" then .error .notFound
  else
    match files.pieces? path with
    | some ps => files.follow [] ps
    | none => .error .notFound

/-- There is something at the place that a path names. -/
theorem isSome_at?_of_locate {files : Files} {path : String} {place : Place}
    (h : files.locate path = .ok place) : (files.at? place).isSome = true := by
  rw [locate] at h
  split at h
  next => cases h
  split at h
  next =>
    refine isSome_at?_of_follow (fun above habove => ?_) h place (List.prefix_refl place)
    rw [List.prefix_nil.1 habove]
    rfl
  next => cases h

/-- The place that a path names, of which the last name need not exist. -/
def locateNew (files : Files) (path : String) : Except FileError Place :=
  match (files.pieces? path).map List.reverse with
  | none => .error .notFound
  | some [] => .ok []
  | some (p :: rest) => do
    if p = "" || p = "." || p = ".." then files.locate path
    else
      let directory ← files.follow [] rest.reverse
      match files.at? directory with
      | some .directory => .ok (directory ++ [p])
      | some _ => .error .notDirectory
      | none => .error .notFound

/-- Whether a path names something. -/
def exists? (files : Files) (path : String) : Bool :=
  match files.locate path with
  | .ok _ => true
  | .error _ => false

/-- Whether a path names a directory. -/
def isDirectory (files : Files) (path : String) : Bool :=
  match files.locate path with
  | .ok place => files.at? place == some .directory
  | .error _ => false

/-- The text of the file at a place. -/
def readAt (files : Files) (place : Place) : Except FileError String :=
  match files.at? place with
  | some (.text content) => .ok content
  | some .binary => .error .notText
  | some .directory => .error .isDirectory
  | none => .error .notFound

/-- The text of a file. -/
def read (files : Files) (path : String) : Except FileError String := do
  files.readAt (← files.locate path)

/-- The files with an entry at a place. -/
def setAt (files : Files) (place : Place) (entry : FileEntry) : Files :=
  { files with entries := files.entries.insert place.key entry }

/-- The files without the entry at a place. -/
def eraseAt (files : Files) (place : Place) : Files :=
  { files with entries := files.entries.erase place.key }

/-- The files after a file was given a new text. -/
def write (files : Files) (path : String) (content : String) : Except FileError Files := do
  let place ← files.locateNew path
  match files.at? place with
  | some .directory => .error .isDirectory
  | _ => .ok (files.setAt place (.text content))

/-- The files after a directory was made. -/
def makeDirectory (files : Files) (path : String) : Except FileError Files := do
  let place ← files.locateNew path
  match files.at? place with
  | some _ => .error .exists
  | none => .ok (files.setAt place .directory)

/-- The files after a directory and the missing ones above it were made, where `depth` bounds
the number of those. -/
def makeDirectories (files : Files) (path : String) : Nat → Except FileError Files
  | 0 => .error .notFound
  | depth + 1 =>
    if path = "" then .ok files
    else
      match files.makeDirectory path with
      | .ok files => .ok files
      | .error .notFound => do
        match Path.parent? path with
        | none => .error .notFound
        | some above =>
          let files ← files.makeDirectories above depth
          match files.makeDirectory path with
          | .ok files => .ok files
          | .error e => if files.isDirectory path then .ok files else .error e
      | .error e => if files.isDirectory path then .ok files else .error e

/-- The files after a file took the place, and the name, of another path. -/
def rename (files : Files) (source target : String) : Except FileError Files := do
  let old ← files.locate source
  let new ← files.locateNew target
  match files.at? old, files.at? new with
  | some .directory, _ => .error .isDirectory
  | some entry, some .directory =>
    if old = new then .ok (files.setAt old entry) else .error .isDirectory
  | some entry, _ => .ok ((files.eraseAt old).setAt new entry)
  | none, _ => .error .notFound

/-- The files after a file was removed, if there was one. -/
def remove (files : Files) (path : String) : Option Files :=
  match files.locate path with
  | .ok place =>
    match files.at? place with
    | some .directory => none
    | some _ => some (files.eraseAt place)
    | none => none
  | .error _ => none

/-- The files without any below the home directory. -/
def empty (home : String) : Files :=
  { home := home, entries := Table.empty }

/-- The files with an entry at a place and directories on the way to it. -/
def enter (files : Files) (place : Place) (entry : FileEntry) : Files :=
  let above := (List.range place.length).drop 1
  let withDirectories := above.foldl (fun (fs : Files) (n : Nat) =>
    let directory := place.take n
    if (fs.at? directory).isSome then fs else fs.setAt directory .directory) files
  withDirectories.setAt place entry

end Files

end SignalSchema
