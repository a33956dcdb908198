import TypeSketch.Files.Script
import TypeSketch.Store.Equivalence
import TypeSketch.Store.Manifest
import TypeSketch.Store.Stub

/-!
# Stores of Stubs

A directory with a module for each class, a manifest that remembers the classes, and
an index that exports them again. A store owns its directory: it opens none that holds
anything else, and none in which a module of the manifest is missing.

A class is committed once, and what happens when it comes again is a policy: its module
is written anew, or the new one has to be equivalent to it. The module is written first,
then the manifest and last the index. The store remembers a new class as soon as its
module is written, so a failure of the later writings leaves it remembered.

## Main definitions

* `IfExists`, `Outcome`, `StoreError`: Policies, results and failures.
* `Store`: A store that is open.
* `Store.openAt`, `Store.commit`, `Store.reset`: The operations.
-/

namespace TypeSketch

/-- What happens to a class that is committed again. -/
inductive IfExists where
  | overwrite
  | validate
deriving Repr, DecidableEq

namespace IfExists

def text : IfExists → String
  | overwrite => "overwrite"
  | validate => "validate"

def variants : List (String × IfExists) := [overwrite, validate].map fun x => (x.text, x)

def parse : String → Except InferenceError IfExists := parseChoice "if_exists" variants

end IfExists

/-- What a commit has done. -/
inductive Outcome where
  | created
  | overwritten
  | unchanged
deriving Repr, DecidableEq

def Outcome.text : Outcome → String
  | created => "created"
  | overwritten => "overwritten"
  | unchanged => "unchanged"

/-- Why an operation of a store fails. -/
inductive StoreError where
  | inference (error : InferenceError)
  | access (path : String) (error : FileError)
  | manifest (path : String) (error : Json.PathError)
  | nonCompliant (className : String)
  | foreignFiles (dir : String) (files : List String)
  | missingSource (className path : String)
deriving Repr, DecidableEq

/-- The wording of a failure. -/
def StoreError.message : StoreError → String
  | inference error => error.message
  | access path error => "failed to access " ++ path ++ ": " ++ error.message
  | manifest path error => "unreadable manifest " ++ path ++ ": " ++ error.message
  | nonCompliant className =>
    "`" ++ className ++ "` already exists with a different shape; overwrite it, reset the store " ++
      "or make the input compliant"
  | foreignFiles dir files =>
    dir ++ " contains files the store did not create: " ++ ", ".intercalate files
  | missingSource className path =>
    "manifest lists `" ++ className ++ "` but " ++ path ++ " is missing"

/-- A store that is open. -/
structure Store where
  dir : String
  ifExists : IfExists
  manifest : Manifest
deriving Repr, DecidableEq

namespace Store

def manifestFile : String := "classes.json"

def indexFile : String := "__init__.pyi"

/-- The name of the file of a class. -/
def moduleFile (className : String) : String := className ++ ".pyi"

/-- The path of a file in the directory. -/
def pathOf (store : Store) (file : String) : String := Path.join store.dir file

/-- Whether a name in the directory is one of the store's. -/
def owns (store : Store) (name : String) : Bool :=
  name = manifestFile || name = indexFile || store.manifest.classes.any (·.2.file = name)

/-- The first class whose module is no file, with the path of the module. -/
def missingSource? (store : Store) :
    List (String × ManifestEntry) → Script (Option (String × String))
  | [] => return none
  | (className, e) :: rest => do
    let path := store.pathOf e.file
    if (← Script.kindOf path) = some .file then missingSource? store rest
    else return some (className, path)

/-- The store, if it owns all of its directory and nothing is missing there. -/
def checkOwnership (store : Store) : Script (Except StoreError Store) := do
  match ← Script.listDirectory store.dir .done with
  | .error error => return .error (.access store.dir error)
  | .ok names =>
    let foreign := names.filter (!store.owns ·)
    if !foreign.isEmpty then
      return .error (.foreignFiles store.dir (foreign.mergeSort fun a b => a ≤ b))
    else
      match ← store.missingSource? store.manifest.classes with
      | some (className, path) => return .error (.missingSource className path)
      | none => return .ok store

/-- The manifest in a directory; without one, that of no classes. -/
def readManifest (dir : String) : Script (Except StoreError Manifest) := do
  let path := Path.join dir manifestFile
  if (← Script.kindOf path).isNone then return .ok {}
  else
    match ← Script.readText path .done with
    | .error error => return .error (.access path error)
    | .ok text => return (Json.decode Manifest.decoder text).mapError (.manifest path)

/-- The store in a directory, which is created if it is missing. -/
def openAt (dir : String) (ifExists : IfExists) : Script (Except StoreError Store) := do
  match ← Script.createDirectories dir with
  | .error error => return .error (.access dir error)
  | .ok () =>
    match ← readManifest dir with
    | .error error => return .error error
    | .ok manifest => checkOwnership ⟨dir, ifExists, manifest⟩

/-- The text of the index. -/
def index (store : Store) : String := store.manifest.index header

/-- Writes one file of the directory. -/
def writeFile (store : Store) (file text : String) : Script (Except StoreError Unit) := do
  let path := store.pathOf file
  return (← Script.writeText path text .done).mapError (.access path)

/-- Writes the manifest and the index. -/
def save (store : Store) : Script (Except StoreError Unit) := do
  match ← store.writeFile manifestFile store.manifest.json with
  | .error error => return .error error
  | .ok () => store.writeFile indexFile store.index

/-- The result of writing the manifest and the index of a store that has changed. -/
def saveAs (store : Store) (outcome : Outcome) : Script (Except StoreError Outcome × Store) := do
  match ← store.save with
  | .error error => return (.error error, store)
  | .ok () => return (.ok outcome, store)

/-- The store with an entry for a class. -/
def remember (store : Store) (className : String) (e : ManifestEntry) : Store :=
  { store with manifest := store.manifest.set className e }

/-- Commits a class for the first time. -/
def create (store : Store) (stub : Stub) (now : Instant) :
    Script (Except StoreError Outcome × Store) := do
  match ← store.writeFile (moduleFile stub.className) stub.source with
  | .error error => return (.error error, store)
  | .ok () =>
    -- The module is there, so the class is remembered even if the rest cannot be written.
    let e : ManifestEntry := ⟨moduleFile stub.className, stub.digest, now, now⟩
    (store.remember stub.className e).saveAs .created

/-- Writes the module of a class anew. -/
def overwrite (store : Store) (stub : Stub) (e : ManifestEntry) (now : Instant) :
    Script (Except StoreError Outcome × Store) := do
  match ← store.writeFile (moduleFile stub.className) stub.source with
  | .error error => return (.error error, store)
  | .ok () =>
    let e := { e with digest := stub.digest, updatedAt := now }
    (store.remember stub.className e).saveAs .overwritten

/-- Compares a stub with the module that its class has. -/
def validate (store : Store) (stub : Stub) : Script (Except StoreError Outcome × Store) := do
  let path := store.pathOf (moduleFile stub.className)
  match ← Script.readText path .done with
  | .error error => return (.error (.access path error), store)
  | .ok stored =>
    if Equivalence.areEquivalent stored stub.source then return (.ok .unchanged, store)
    else return (.error (.nonCompliant stub.className), store)

/-- Commits a stub. -/
def commit (store : Store) (stub : Stub) : Script (Except StoreError Outcome × Store) := do
  if !Naming.isIdentifier stub.className then
    return (.error (.inference (.invalidIdentifier stub.className)), store)
  else
    let now ← Script.clock .done
    match store.manifest.entry? stub.className with
    | none => store.create stub now
    | some e =>
      match store.ifExists with
      | .validate => store.validate stub
      | .overwrite => store.overwrite stub e now

/-- Infers a class from a value and commits it. -/
def commitValue (store : Store) (s : Strategies) (className : String) (v : Value) :
    Script (Except StoreError Outcome × Store) :=
  match Stub.ofValue s className v with
  | .error error => return (.error (.inference error), store)
  | .ok stub => store.commit stub

/-- Removes the directory with all in it. -/
def reset (store : Store) : Script (Except StoreError Unit) := do
  return (← Script.removeTree store.dir .done).mapError (.access store.dir)

end Store

end TypeSketch
