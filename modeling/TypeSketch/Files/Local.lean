import Std.Time.DateTime.Timestamp
import TypeSketch.Files.Script

/-!
# The Files of the Machine

How scripts run on the files and the clock of the machine.

## Main definitions

* `FileError.ofMachine`: The failure behind an error of the machine.
* `Script.perform`: Running a script.
-/

namespace TypeSketch

/-- The failure behind an error of the machine. Codes come with either sign. -/
def FileError.ofMachine (error : IO.Error) : FileError :=
  match error with
  | .noFileOrDirectory .. => .notFound
  | .alreadyExists .. => .alreadyExists
  | .inappropriateType _ code _ => if hasCode 21 code then .isDirectory else .notDirectory
  | .invalidArgument _ code _ => if hasCode 36 code then .nameTooLong else .invalidArgument
  | .unsatisfiedConstraints .. => .notEmpty
  | error => .other (toString error)
where
  hasCode (expected code : UInt32) : Bool := code = expected || code = 0 - expected

/-- The instant of a number of nanoseconds since the start of 1970. -/
def Instant.ofNanoseconds (n : Int) : Instant where
  day := n / 86400000000000
  second := (n / 1000000000 % 86400).toNat
  nanosecond := (n % 1000000000).toNat

namespace Script

/-- The result of an action, or why it failed. -/
def attempt {α : Type} (action : IO α) : IO (Except FileError α) := do
  return (← action.toBaseIO).mapError FileError.ofMachine

/-- The text of a file. -/
def readFile (path : String) : IO (Except FileError String) := do
  match ← attempt (IO.FS.readBinFile path) with
  | .error error => return .error error
  | .ok bytes =>
    return match String.fromUTF8? bytes with
      | some text => .ok text
      | none => .error .notText

/-- What is at a path, if anything is. Links are followed. -/
def lookAt (path : String) : IO (Option FileKind) := do
  let found ← attempt do return (← (← IO.FS.realPath path).metadata).type
  return match found with
    | .ok .dir => some .directory
    | .ok _ => some .file
    | .error _ => none

/-- The names in a directory. -/
def namesIn (path : String) : IO (List String) := do
  return ((← (← IO.FS.realPath path).readDir).map (·.fileName)).toList

/-- Runs a script on the files of the machine. -/
def perform {α : Type} : Script α → IO α
  | done a => return a
  | readText path next => do (next (← readFile path)).perform
  | writeText path text next => do
    (next (← attempt (IO.FS.writeBinFile path text.toUTF8))).perform
  | createDirectory path next => do (next (← attempt (IO.FS.createDir path))).perform
  | inspect path next => do (next (← lookAt path)).perform
  | listDirectory path next => do (next (← attempt (namesIn path))).perform
  | removeTree path next => do (next (← attempt (IO.FS.removeDirAll path))).perform
  | clock next => do
    let now ← Std.Time.Timestamp.now
    (next (.ofNanoseconds now.toNanosecondsSinceUnixEpoch.val)).perform

end Script

end TypeSketch
