import TypeSketch.Glob.Pattern
import TypeSketch.Store.Basic

/-!
# Failures of Requests

Why a request is not carried out, and how a failure is told: as a chain of messages,
each the cause of the one before it.

## Main definitions

* `RequestError`: The failures.
* `RequestError.chain`: Their messages.
-/

namespace TypeSketch

/-- Why a request is not carried out. -/
inductive RequestError where
  | strategiesUnreadable (path : String) (error : FileError)
  | strategiesInvalid (path : String) (error : Json.PathError)
  | settingRefused (error : InferenceError)
  | patternInvalid (pattern : String) (fault : Glob.Fault)
  | patternUnmatched (pattern : String)
  | sourceUnreadable (path : String) (error : FileError)
  | sourceNotJson (path : String) (index : Nat) (fault : Json.Fault)
  | nothingSelected (path pointer : String)
  | notOneToRender (count : Nat)
  | notOneToName (count : Nat)
  | notInferred (path : String) (error : InferenceError)
  | notRendered (error : InferenceError)
  | directoryNotCreated (path : String) (error : FileError)
  | moduleNotWritten (path : String) (error : FileError)
  | storeNotOpened (dir : String) (error : StoreError)
  | storeNotReset (error : StoreError)
  | someNotStored (failures total : Nat)
deriving Repr, DecidableEq

/-- The messages of a failure of a store. A failure of an operation on files has a cause
    of its own. -/
def StoreError.chain : StoreError → List String
  | access path error => [(access path error).message, error.message]
  | error => [error.message]

namespace RequestError

/-- What a number of values is not. -/
def notOneText (subject : String) (count : Nat) : String :=
  subject ++ " needs exactly one input value, got " ++ toString count

/-- The messages of a failure, each the cause of the one before it. -/
def chain : RequestError → List String
  | strategiesUnreadable path error =>
    ["failed to read strategies file " ++ path, error.message]
  | strategiesInvalid path error =>
    ["invalid strategies file " ++ path ++ ": " ++ error.message]
  | settingRefused error => [error.message]
  | patternInvalid pattern fault =>
    ["failed to resolve input file paths", "invalid glob pattern: " ++ pattern, fault.message]
  | patternUnmatched pattern =>
    ["failed to resolve input file paths", "glob pattern matched no files: " ++ pattern]
  | sourceUnreadable path error => ["failed to read source file " ++ path, error.message]
  | sourceNotJson path index fault =>
    ["failed to parse JSON source file (" ++ path ++ "), value " ++ toString index, fault.message]
  | nothingSelected path pointer => [pointer ++ " selects nothing in " ++ path]
  | notOneToRender count => [notOneText "render" count]
  | notOneToName count => [notOneText "--class-name" count]
  | notInferred path error => ["failed to infer " ++ path, error.message]
  | notRendered error => [error.message]
  | directoryNotCreated path error => ["failed to create " ++ path, error.message]
  | moduleNotWritten path error => ["failed to write " ++ path, error.message]
  | storeNotOpened dir error => ("failed to open stub directory " ++ dir) :: error.chain
  | storeNotReset error => error.chain
  | someNotStored failures total =>
    [toString failures ++ " of " ++ toString total ++ " classes failed"]

end RequestError

end TypeSketch
