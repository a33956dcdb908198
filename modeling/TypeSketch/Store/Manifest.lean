import TypeSketch.Json.Quoted
import TypeSketch.Json.Typed
import TypeSketch.Time.Reader

/-!
# Manifests

What a directory of stubs remembers of each class: its file, the digest of its shape
and the times of its first and last writing. The classes stand in the order in which
they were first written.

A manifest is a JSON document. It is written with two spaces for a step of indentation
and read with its members in any order and others passed over.

## Main definitions

* `ManifestEntry`, `Manifest`: The contents.
* `Manifest.json`: A manifest as a document.
* `Manifest.decoder`: Reading a manifest.
-/

namespace TypeSketch

/-- What is remembered of a class. -/
structure ManifestEntry where
  file : String
  digest : UInt64
  createdAt : Instant
  updatedAt : Instant
deriving Repr, DecidableEq

/-- The classes and what is remembered of them. -/
structure Manifest where
  classes : List (String × ManifestEntry) := []
deriving Repr, DecidableEq

namespace ManifestEntry

/-- An entry as an object, in the second level of a document. -/
def json (e : ManifestEntry) : String :=
  "\x7b\n      \"file\": " ++ Json.quote e.file ++
  ",\n      \"structural_hash\": " ++ toString e.digest ++
  ",\n      \"created_at\": " ++ Json.quote e.createdAt.text ++
  ",\n      \"updated_at\": " ++ Json.quote e.updatedAt.text ++ "\n    \x7d"

/-- Reads an instant. -/
def instant : Json.Decoder Instant :=
  Json.refine "an RFC 3339 formatted date and time string" fun s =>
    (Instant.parse s).mapError Instant.Fault.message

/-- The format of an entry. -/
def format : Json.RecordFormat ManifestEntry where
  name := "ManifestEntry"
  fields := [
    ⟨"file", fun e cs =>
      (Json.string "a string" cs).map fun (x, rest) => ({ e with file := x }, rest)⟩,
    ⟨"structural_hash", fun e cs =>
      (Json.integer 0 0xFFFFFFFFFFFFFFFF "u64" cs).map fun (x, rest) =>
        ({ e with digest := UInt64.ofNat x.toNat }, rest)⟩,
    ⟨"created_at", fun e cs => (instant cs).map fun (x, rest) => ({ e with createdAt := x }, rest)⟩,
    ⟨"updated_at", fun e cs => (instant cs).map fun (x, rest) => ({ e with updatedAt := x }, rest)⟩]
  optional := false
  closed := false

/-- Reads an entry. -/
def decoder : Json.Decoder ManifestEntry := format.read ⟨"", 0, ⟨0, 0, 0⟩, ⟨0, 0, 0⟩⟩

end ManifestEntry

namespace Manifest

def entry? (m : Manifest) (className : String) : Option ManifestEntry :=
  m.classes.lookup className

/-- The manifest with an entry for a class, in the place of the one it had. -/
def set (m : Manifest) (className : String) (e : ManifestEntry) : Manifest :=
  ⟨Json.setNamed m.classes className e⟩

/-- A manifest as a document. -/
def json (m : Manifest) : String :=
  let entries := m.classes.map fun (className, e) =>
    "\n    " ++ Json.quote className ++ ": " ++ e.json
  let classes :=
    if entries.isEmpty then "\x7b\x7d" else "\x7b" ++ ",".intercalate entries ++ "\n  \x7d"
  "\x7b\n  \"classes\": " ++ classes ++ "\n\x7d"

/-- The format of a manifest. -/
def format : Json.RecordFormat Manifest where
  name := "Manifest"
  fields := [
    ⟨"classes", fun m cs =>
      (Json.mapOf ManifestEntry.decoder cs).map fun (x, rest) => ({ m with classes := x }, rest)⟩]
  optional := false
  closed := false

/-- Reads a manifest. -/
def decoder : Json.Decoder Manifest := format.read {}

/-- The index of the classes: a statement for each that exports it again, and the list
    of their names, in ascending order. -/
def index (m : Manifest) (header : String) : String :=
  let names := (m.classes.map (·.1)).mergeSort fun a b => a ≤ b
  header ++ "\n" ++
    String.join (names.map fun name => "from ." ++ name ++ " import " ++ name ++ "\n") ++
    "\n__all__ = [" ++ ", ".intercalate (names.map fun name => "\"" ++ name ++ "\"") ++ "]\n"

end Manifest

end TypeSketch
