/-!
# Paths

Paths as texts, and their parts. A path is read as its components: the names between
slashes, where empty names and a single point count for nothing, except for a point
at the very start. An absolute path starts with a slash, which is a component of its
own.

## Main definitions

* `Path.components`: The components of a path.
* `Path.join`: A path below another.
* `Path.parent?`, `Path.fileName?`, `Path.stem?`: Parts of a path.
-/

namespace TypeSketch

namespace Path

/-- The texts between the slashes of a path. -/
def segments (path : String) : List String :=
  (path.toList.splitOn '/').map String.ofList

def isAbsolute (path : String) : Bool :=
  path.toList.head? = some '/'

/-- The names on the way from where the path starts. -/
def names (path : String) : List String :=
  (segments path).filter fun s => s ≠ "" && s ≠ "."

/-- The components of a path. -/
def components (path : String) : List String :=
  let start :=
    if isAbsolute path then ["/"] else if (segments path).head? = some "." then ["."] else []
  start ++ names path

/-- Whether the path can only name a directory. -/
def endsAsDirectory (path : String) : Bool :=
  match (segments path).getLast? with
  | some s => s = "" || s = "." || s = ".."
  | none => false

/-- The path `relative` seen from the directory `base`. -/
def join (base relative : String) : String :=
  if isAbsolute relative || base.isEmpty then relative
  else if base.toList.getLast? = some '/' then base ++ relative
  else base ++ "/" ++ relative

/-- A path, the last character first, without the slashes and single points at its end.
    The slash of an absolute path stays, and so does a point that is all of it. -/
def trimReversed : List Char → List Char
  | ['/'] => ['/']
  | '/' :: rest => trimReversed rest
  | '.' :: '/' :: rest => trimReversed ('/' :: rest)
  | path => path
termination_by path => path.length

/-- The path without its last component, if it has one that is not the root. -/
def parent? (path : String) : Option String :=
  if components path = [] ∨ components path = ["/"] then none
  else
    let whole := trimReversed path.toList.reverse
    some (String.ofList (trimReversed (whole.dropWhile (· ≠ '/'))).reverse)

/-- The last component, if it is a name. -/
def fileName? (path : String) : Option String :=
  match (components path).getLast? with
  | some last => if last = "/" ∨ last = "." ∨ last = ".." then none else some last
  | none => none

/-- The file name without what follows its last point. A point at the start of the name
    belongs to it. -/
def stem? (path : String) : Option String :=
  (fileName? path).map fun name =>
    match (name.toList.reverse.dropWhile (· ≠ '.')).drop 1 with
    | [] => name
    | before => String.ofList before.reverse

end Path

end TypeSketch
