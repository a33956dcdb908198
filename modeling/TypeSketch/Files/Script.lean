import TypeSketch.Files.Path
import TypeSketch.Time.Instant

/-!
# Scripts on Files

What a program does with files, as data: a script is finished, or it asks for one
operation and goes on with the answer. So a program is written once, and can be run on
the files of a machine, on a directory tree in memory, or on one whose operations fail.

An operation has its whole effect or fails with none, except that a directory may lose
what is in it before its own removal fails.

## Main definitions

* `FileError`: Why an operation fails.
* `Script`: Scripts, with `Script.bind`.
* `Script.createDirectories`: A directory and all above it.
-/

namespace TypeSketch

/-- Why an operation on files fails. -/
inductive FileError where
  | notFound
  | alreadyExists
  | notDirectory
  | isDirectory
  | invalidArgument
  | nameTooLong
  | notEmpty
  | notText
  | other (message : String)
deriving Repr, DecidableEq

/-- The wording of a failure. -/
def FileError.message : FileError → String
  | notFound => "No such file or directory (os error 2)"
  | alreadyExists => "File exists (os error 17)"
  | notDirectory => "Not a directory (os error 20)"
  | isDirectory => "Is a directory (os error 21)"
  | invalidArgument => "Invalid argument (os error 22)"
  | nameTooLong => "File name too long (os error 36)"
  | notEmpty => "Directory not empty (os error 39)"
  | notText => "stream did not contain valid UTF-8"
  | other message => message

/-- What a path can lead to. -/
inductive FileKind where
  | file
  | directory
deriving Repr, DecidableEq

/-- A program that works on files. -/
inductive Script (α : Type) where
  | done (a : α)
  | readText (path : String) (next : Except FileError String → Script α)
  | writeText (path text : String) (next : Except FileError Unit → Script α)
  | createDirectory (path : String) (next : Except FileError Unit → Script α)
  | inspect (path : String) (next : Option FileKind → Script α)
  | listDirectory (path : String) (next : Except FileError (List String) → Script α)
  | removeTree (path : String) (next : Except FileError Unit → Script α)
  | clock (next : Instant → Script α)

namespace Script

/-- A script and one that goes on with its result. -/
def bind {α β : Type} (script : Script α) (f : α → Script β) : Script β :=
  match script with
  | done a => f a
  | readText path next => readText path fun r => (next r).bind f
  | writeText path text next => writeText path text fun r => (next r).bind f
  | createDirectory path next => createDirectory path fun r => (next r).bind f
  | inspect path next => inspect path fun r => (next r).bind f
  | listDirectory path next => listDirectory path fun r => (next r).bind f
  | removeTree path next => removeTree path fun r => (next r).bind f
  | clock next => clock fun r => (next r).bind f

instance : Monad Script where
  pure := done
  bind := bind

/-- What is at a path, if anything is. -/
def kindOf (path : String) : Script (Option FileKind) := inspect path done

def isDirectory (path : String) : Script Bool := do
  return (← kindOf path) = some .directory

/-- Creates a directory unless one is there, and the directories above it as far as they
    are missing. The fuel bounds the number of components. -/
def createDirectoriesFrom (fuel : Nat) (path : String) : Script (Except FileError Unit) := do
  match ← createDirectory path done with
  | .ok () => return .ok ()
  | .error error =>
    if error ≠ .notFound then
      return if ← isDirectory path then .ok () else .error error
    else
      match fuel, Path.parent? path with
      | fuel + 1, some parent =>
        if parent ≠ "" then
          match ← createDirectoriesFrom fuel parent with
          | .error error => return .error error
          | .ok () => createAgain path
        else createAgain path
      | _, _ => return .error (.other "failed to create whole tree")
where
  /-- Creates the directory unless one is there. -/
  createAgain (path : String) : Script (Except FileError Unit) := do
    match ← createDirectory path done with
    | .ok () => return .ok ()
    | .error error => return if ← isDirectory path then .ok () else .error error

/-- A directory and all above it. The empty path is the directory that is always there. -/
def createDirectories (path : String) : Script (Except FileError Unit) :=
  if path = "" then done (.ok ())
  else createDirectoriesFrom (Path.components path).length path

end Script

end TypeSketch
