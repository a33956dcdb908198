import TypeSketch.Files.Script
import TypeSketch.Glob.Pattern

/-!
# Searching for Paths

The paths that a pattern stands for, in the order of their components. The search goes
down from a directory and reads only those directories in which a component of the
pattern is no plain name. A star also stands for names that start with a point, but for
the directory itself and the one above only a pattern that starts with a point does.

## Main definitions

* `Glob.expand`: The candidates for a pattern below a path.
* `Glob.visit`: The paths that a candidate leads to.
* `Glob.PathPattern.search`: The paths that a pattern stands for.
-/

namespace TypeSketch

namespace Glob

/-- A path on the way of a search: one that the whole pattern stands for, or an entry of
    a directory whose name comes to be compared with the components that are left. -/
inductive Candidate where
  | found (path : String)
  | entry (path name : String) (components : List (List Token))
deriving Repr, DecidableEq

/-- The path of a name in a directory. Names in the directory where paths start have
    nothing in front of them. -/
def pathIn (dir name : String) : String :=
  if Path.components dir = ["."] then name else Path.join dir name

/-- Whether a name is a directory's own or that of the one above, which are there in each
    directory and only there. -/
def isRelative (name : String) : Bool := name = "." || name = ".."

/-- Whether there is something with this name at a path in a directory. -/
def isThere (dir name path : String) : Script Bool := do
  if isRelative name then Script.isDirectory dir
  else return (← Script.kindOf path).isSome

/-- Those of the relative names that tokens stand for. A point has to be written. -/
def relativeNames (tokens : List Token) : List String :=
  if tokens.head? = some (.char '.') then ["..", "."].filter fun name => accepts tokens name.toList
  else []

/-- The candidates for a pattern below a path, in their order. Plain names are followed
    at once. -/
def expand (path : String) : List (List Token) → Script (List Candidate)
  | [] => return [.found path]
  | tokens :: rest => do
    match literal? tokens with
    | some name =>
      let next := pathIn path name
      if ← isThere path name next then expand next rest else return []
    | none =>
      match ← Script.listDirectory path .done with
      | .error _ => return []
      | .ok names =>
        let relative ← (relativeNames tokens).mapM fun name => expand (Path.join path name) rest
        let sorted := names.mergeSort fun a b => a ≤ b
        return relative.flatten ++ sorted.map fun name =>
          .entry (pathIn path name) name (tokens :: rest)

/-- Whether a component stands for any directories on the way. -/
def isDeep (tokens : List Token) : Bool := tokens = [.anyDirectories]

/-- The paths that a candidate leads to. A candidate that ends the search is a directory
    if it has to be one. The fuel bounds the depth of directories. -/
def visit (directoriesOnly : Bool) (fuel : Nat) (candidate : Candidate) : Script (List String) := do
  match fuel, candidate with
  | _, .found path => keepIfAllowed path
  | 0, .entry .. => return []
  | fuel + 1, .entry path name components =>
    let left := components.dropWhile isDeep
    if components.head?.any isDeep then
      -- Any directories may be on the way: all that is in this one, and the entry itself.
      if ← Script.isDirectory path then
        let below ← expand path ([.anyDirectories] :: left)
        let here ← if left = [] then return [path] else compare fuel path name left
        return here ++ (← visitAll fuel below)
      else if left = [] then return []
      else compare fuel path name left
    else compare fuel path name left
where
  /-- The path, unless it is no directory and has to be one. -/
  keepIfAllowed (path : String) : Script (List String) := do
    if directoriesOnly && !(← Script.isDirectory path) then return [] else return [path]
  /-- The paths that candidates lead to. -/
  visitAll (fuel : Nat) (candidates : List Candidate) : Script (List String) := do
    return (← candidates.mapM (visit directoriesOnly fuel)).flatten
  /-- The paths that an entry leads to whose name is compared with a component. -/
  compare (fuel : Nat) (path name : String) : List (List Token) → Script (List String)
    | [] => return []
    | tokens :: rest => do
      if !accepts tokens name.toList then return []
      else if rest = [] then keepIfAllowed path
      else visitAll fuel (← expand path rest)

/-- A bound for the depth of directories: no path is longer. -/
def depthLimit : Nat := 4096

/-- The paths that a pattern stands for. -/
def PathPattern.search (pattern : PathPattern) : Script (List String) := do
  let candidates ← expand (if pattern.absolute then "/" else ".") pattern.components
  return (← candidates.mapM (visit pattern.directoriesOnly depthLimit)).flatten

end Glob

end TypeSketch
