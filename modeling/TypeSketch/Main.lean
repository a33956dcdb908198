import TypeSketch.Command.Run
import TypeSketch.Files.Local

/-!
# The Program

The command line program: it reads a request from its arguments, carries it out on the
files of the machine and says what came of it. Its exit code is 0 after success, 1 after
a failure and 2 when the arguments make no request.

## Main definitions

* `usageText`: How the program is used.
* `main`: The program.
-/

namespace TypeSketch

def versionText : String := "type-sketch 0.1.0\n"

/-- How the program is used. -/
def usageText : String :=
  "Infers type declarations (TypedDict classes and aliases) from example JSON documents.\n\n" ++
  "Usage:\n" ++
  "  type-sketch render --input <PATH>... [OPTIONS]\n" ++
  "  type-sketch store --dir <DIR> --input <PATH>... [OPTIONS]\n" ++
  "  type-sketch reset --dir <DIR>\n\n" ++
  "Inputs (paths or glob patterns):\n" ++
  "  -i, --input <PATH>...              files to read\n" ++
  "      --ndjson                       one document on each line\n" ++
  "      --json-pointer <POINTER>       part of each document\n" ++
  "      --arrays-as <KIND>             list, tuple or set\n\n" ++
  "Strategies:\n" ++
  "      --strategies <PATH>            file with strategies\n" ++
  "      --list-strategy <NAME>         list or Sequence\n" ++
  "      --tuple-size-strategy <NAME>   fixed or any size\n" ++
  "      --dict-strategy <NAME>         TypedDict, Mapping or dict\n" ++
  "      --min-height <N>               height from which containers are aliased\n" ++
  "      --key-used-as-doc <KEY>        field with the documentation of a record\n" ++
  "      --merge-similarity <N>         percentage of shared fields to merge records at\n" ++
  "      --read-only                    read-only fields\n\n" ++
  "Results:\n" ++
  "      --class-name <NAME>            name of the class\n" ++
  "  -o, --out <PATH>                   file for a rendered module\n" ++
  "      --no-op                        check the arguments only\n" ++
  "      --dir <DIR>                    directory of the store\n" ++
  "      --if-exists <POLICY>           overwrite or validate\n"

/-- What is wrong with arguments, in words. -/
def UsageError.message : UsageError → String
  | helpWanted => "help was asked for"
  | versionWanted => "the version was asked for"
  | commandMissing => "a command is missing"
  | unknownCommand => "there is no such command"
  | unknownArgument => "an argument fits no option"
  | requiredMissing => "a required option is missing"
  | valueMissing => "an option has no value"
  | valueNotAmong => "a value is not among those of its option"
  | valueRejected => "a value does not fit its option"
  | givenTwice => "an option is given twice"
  | valueUnwanted => "a flag has a value"

/-- A failure as it is told: the message, and what caused it. -/
def RequestError.text (error : RequestError) : String :=
  match error.chain with
  | [] => "Error\n"
  | [message] => "Error: " ++ message ++ "\n"
  | [message, cause] => "Error: " ++ message ++ "\n\nCaused by:\n    " ++ cause ++ "\n"
  | message :: causes =>
    let numbered := causes.zipIdx.map fun (cause, i) => "    " ++ toString i ++ ": " ++ cause ++ "\n"
    "Error: " ++ message ++ "\n\nCaused by:\n" ++ String.join numbered

/-- Tells why arguments make no request. -/
def tellUsage : UsageError → IO UInt32
  | .helpWanted => do
    IO.print usageText
    return 0
  | .versionWanted => do
    IO.print versionText
    return 0
  | error => do
    IO.eprint ("error: " ++ error.message ++ "\n\n" ++ usageText)
    return 2

/-- Tells a report. -/
def tell (report : Report) : IO UInt32 := do
  IO.print report.output
  IO.eprint report.log
  match report.result with
  | .ok () => return 0
  | .error error =>
    IO.eprint error.text
    return 1

end TypeSketch

/-- The program. -/
def main (args : List String) : IO UInt32 := do
  match TypeSketch.Request.parse args with
  | .error error => TypeSketch.tellUsage error
  | .ok request => TypeSketch.tell (← request.run.perform)
