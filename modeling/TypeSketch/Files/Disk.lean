import TypeSketch.Files.Script

/-!
# A Directory Tree in Memory

Files and directories by the names on the way to them, and how scripts run on them. The
way to a node leads from the root, which is always there and from which all paths start.

Every directory on the way to a node has to be there, so a path is followed name by
name. A file on the way, a name that is too long and a missing directory are different
failures, and the first on the way counts.

## Main definitions

* `Content`, `Node`, `Disk`: Files and directories.
* `Disk.locate`: What a path leads to.
* `Disk.readText`, …, `Disk.removeTree`: The operations.
* `World`, `Script.run`: Running a script.
-/

namespace TypeSketch

/-- What a file holds: a text, or bytes that are no text in UTF-8. -/
inductive Content where
  | text (s : String)
  | binary (bytes : List UInt8)
deriving Repr, DecidableEq

/-- A file or a directory. -/
inductive Node where
  | file (content : Content)
  | directory
deriving Repr, DecidableEq

/-- Files and directories with the names on the way to each. -/
structure Disk where
  nodes : List (List String × Node) := []
deriving Repr, DecidableEq

/-- Where a path leads: to a node, or to a place in a directory where none is. -/
inductive Place where
  | found (way : List String) (node : Node)
  | free (way : List String)
deriving Repr, DecidableEq

namespace Disk

/-- The node at the end of a way; the root is a directory. -/
def get? (disk : Disk) (way : List String) : Option Node :=
  if way = [] then some .directory else disk.nodes.lookup way

/-- The disk with a node put at the end of a way. -/
def put (disk : Disk) (way : List String) (node : Node) : Disk :=
  ⟨if (disk.nodes.lookup way).isSome then
      disk.nodes.map fun (w, n) => if w = way then (w, node) else (w, n)
    else disk.nodes ++ [(way, node)]⟩

/-- Follows names from a directory that is there. -/
def follow (disk : Disk) (way : List String) : List String → Except FileError Place
  | [] => .ok (.found way .directory)
  | name :: rest =>
    -- Above the root there is the root.
    if name = ".." then disk.follow way.dropLast rest
    else if 255 < name.utf8ByteSize then .error .nameTooLong
    else
      match disk.get? (way ++ [name]) with
      | some .directory => disk.follow (way ++ [name]) rest
      | some (.file content) =>
        if rest.isEmpty then .ok (.found (way ++ [name]) (.file content))
        else .error .notDirectory
      | none => if rest.isEmpty then .ok (.free (way ++ [name])) else .error .notFound

/-- What a path leads to. -/
def locate (disk : Disk) (path : String) : Except FileError Place :=
  if path = "" then .error .notFound else disk.follow [] (Path.names path)

/-- What a path leads to that may have to be a directory. -/
def locateNode (disk : Disk) (path : String) : Except FileError Place :=
  match disk.locate path with
  | .ok (.found way (.file content)) =>
    if Path.endsAsDirectory path then .error .notDirectory
    else .ok (.found way (.file content))
  | place => place

/-- The text of a file. -/
def readText (disk : Disk) (path : String) : Except FileError String :=
  match disk.locateNode path with
  | .error error => .error error
  | .ok (.free _) => .error .notFound
  | .ok (.found _ .directory) => .error .isDirectory
  | .ok (.found _ (.file (.text s))) => .ok s
  | .ok (.found _ (.file (.binary _))) => .error .notText

/-- Puts a file at a path, over one that is there. -/
def write (disk : Disk) (path : String) (content : Content) : Except FileError Disk :=
  match disk.locateNode path with
  | .error error => .error error
  | .ok (.free way) =>
    if Path.endsAsDirectory path then .error .isDirectory else .ok (disk.put way (.file content))
  | .ok (.found _ .directory) => .error .isDirectory
  | .ok (.found way (.file _)) => .ok (disk.put way (.file content))

/-- Puts a directory at a path where nothing is. -/
def createDirectory (disk : Disk) (path : String) : Except FileError Disk :=
  match disk.locate path with
  | .error error => .error error
  | .ok (.free way) => .ok (disk.put way .directory)
  | .ok (.found ..) => .error .alreadyExists

/-- What is at a path, if anything is. -/
def inspect (disk : Disk) (path : String) : Option FileKind :=
  match disk.locateNode path with
  | .ok (.found _ .directory) => some .directory
  | .ok (.found _ (.file _)) => some .file
  | _ => none

/-- The name under which a way goes on directly below another. -/
def nameBelow? (way other : List String) : Option String :=
  if other.dropLast = way then other.getLast? else none

/-- The names in a directory. -/
def listDirectory (disk : Disk) (path : String) : Except FileError (List String) :=
  match disk.locateNode path with
  | .error error => .error error
  | .ok (.free _) => .error .notFound
  | .ok (.found _ (.file _)) => .error .notDirectory
  | .ok (.found way .directory) => .ok (disk.nodes.filterMap fun (other, _) => nameBelow? way other)

/-- The disk without the nodes below a way. -/
def clear (disk : Disk) (way : List String) : Disk :=
  ⟨disk.nodes.filter fun (other, _) => !(way.isPrefixOf other && way.length < other.length)⟩

/-- The disk without a node and all below it. -/
def remove (disk : Disk) (way : List String) : Disk :=
  ⟨disk.nodes.filter fun (other, _) => !way.isPrefixOf other⟩

/-- Removes a directory and all in it. A path that ends in a point empties the directory
    and then fails, because such a name cannot be removed. -/
def removeTree (disk : Disk) (path : String) : Except FileError Unit × Disk :=
  match disk.locateNode path with
  | .error error => (.error error, disk)
  | .ok (.free _) => (.error .notFound, disk)
  | .ok (.found _ (.file _)) => (.error .notDirectory, disk)
  | .ok (.found way .directory) =>
    match ((Path.segments path).filter (· ≠ "")).getLast? with
    | some last =>
      if last = "." then (.error .invalidArgument, disk.clear way)
      else if last = ".." then (.error .notEmpty, disk.clear way)
      else (.ok (), disk.remove way)
    | none => (.ok (), disk.remove way)

/-- An operation that has its effect or fails. -/
def commit (disk : Disk) : Except FileError Disk → Except FileError Unit × Disk
  | .ok changed => (.ok (), changed)
  | .error error => (.error error, disk)

end Disk

/-- The files that a script runs on, and the time. -/
structure World where
  disk : Disk := {}
  now : Instant := ⟨0, 0, 0⟩
deriving Repr, DecidableEq

/-- The world with another disk. -/
def World.withDisk {α : Type} (world : World) (result : α × Disk) : α × World :=
  (result.1, { world with disk := result.2 })

namespace Script

/-- The result of a script and the world after it. -/
def run {α : Type} : Script α → World → α × World
  | done a, world => (a, world)
  | readText path next, world => (next (world.disk.readText path)).run world
  | writeText path text next, world =>
    let (answer, world) := world.withDisk (world.disk.commit (world.disk.write path (.text text)))
    (next answer).run world
  | createDirectory path next, world =>
    let (answer, world) := world.withDisk (world.disk.commit (world.disk.createDirectory path))
    (next answer).run world
  | inspect path next, world => (next (world.disk.inspect path)).run world
  | listDirectory path next, world => (next (world.disk.listDirectory path)).run world
  | removeTree path next, world =>
    let (answer, world) := world.withDisk (world.disk.removeTree path)
    (next answer).run world
  | clock next, world => (next world.now).run world

end Script

end TypeSketch
