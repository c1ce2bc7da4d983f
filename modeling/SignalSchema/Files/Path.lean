/-!
# Paths

Paths are texts with components between slashes. The functions here look at the text only
and never at what it names.
-/

namespace SignalSchema.Path

/-- The parts of a path between its slashes. -/
def pieces (path : String) : List String :=
  path.splitOn "/"

/-- The parts that name a step: empty ones and single dots name none. -/
def components (path : String) : List String :=
  (pieces path).filter fun p => p ≠ "" && p ≠ "."

/-- The path with the given pieces, the root when only the mark of an absolute path is left. -/
def ofPieces (ps : List String) : String :=
  if ps = [""] then "/" else "/".intercalate ps

/-- The pieces without those at the end that name no step. -/
def trimmedPieces (path : String) : List String :=
  let ps := ((pieces path).reverse.dropWhile fun p => p = "" || p = ".").reverse
  if ps.isEmpty && path.startsWith "/" then [""] else ps

/-- Whether a path starts at the root. -/
def isAbsolute (path : String) : Bool :=
  path.startsWith "/"

/-- The path of the directory that a path lies in, empty for a single name and absent where
there is none. -/
def parent? (path : String) : Option String :=
  match (trimmedPieces path).reverse with
  | [] => none
  | [""] => none
  | _ :: rest =>
    let ps := (rest.dropWhile fun p => p = "" || p = ".").reverse
    some (if ps.isEmpty && isAbsolute path then "/" else ofPieces ps)

/-- The path `relative` as seen from a directory; an absolute path is itself. -/
def join (base relative : String) : String :=
  if isAbsolute relative || base = "" then relative
  else if base.endsWith "/" then base ++ relative
  else base ++ "/" ++ relative

/-- A file name without its last extension. A dot in front starts no extension. -/
def stem (name : String) : String :=
  match name.toList.reverse.span (· ≠ '.') with
  | (_, _ :: before) => if before.isEmpty then name else String.ofList before.reverse
  | (_, []) => name

/-- The path with the extension of its file name replaced. -/
def withExtension (path extension : String) : String :=
  match (trimmedPieces path).reverse with
  | [] => path
  | name :: rest =>
    if name = ".." || name = "" then path
    else ofPieces ((stem name ++ "." ++ extension) :: rest).reverse

/-- Whether two paths have the same components. -/
def same (a b : String) : Bool :=
  isAbsolute a == isAbsolute b && components a == components b

end SignalSchema.Path
