import TypeSketch.NameSet
import TypeSketch.Text.Lines

/-!
# Import Statements

The statements that import a set of symbols. There is one statement for each module,
the modules and the names in ascending order, on one line if it fits and in
parentheses with one name a line otherwise.

A symbol with a point names its module. The others come from `typing`, a few of them
under another name, except for two that are newer than it and one of `types`.

## Main definitions

* `Imports.resolve`: The module and the name of a symbol.
* `Imports.statement`: The statement for one module.
* `Imports.format`: The statements for a set of symbols.
-/

namespace TypeSketch

namespace Imports

/-- The length up to which a line is not broken. -/
def defaultLineLength : Nat := 88

/-- One step of indentation. -/
def tab : String := "    "

/-- The parts of a text before and after its last point. -/
def splitAtLastPoint? (s : String) : Option (String × String) :=
  let reversed := s.toList.reverse
  let last := reversed.takeWhile (· ≠ '.')
  match reversed.dropWhile (· ≠ '.') with
  | [] => none
  | _ :: before => some (String.ofList before.reverse, String.ofList last.reverse)

/-- The module that a symbol is imported from and the name it has there. -/
def resolve (symbol : String) : String × String :=
  if symbol = "list" then ("typing", "List")
  else if symbol = "tuple" then ("typing", "Tuple")
  else if symbol = "dict" then ("typing", "Dict")
  else if symbol = "set" then ("typing", "Set")
  else if symbol = "frozenset" then ("typing", "FrozenSet")
  else if symbol = "MappingProxyType" then ("types", symbol)
  else if symbol = "NotRequired" ∨ symbol = "ReadOnly" then ("typing_extensions", symbol)
  else (splitAtLastPoint? symbol).getD ("typing", symbol)

/-- The statement that imports names from a module. It is broken if it has more bytes
    than the line may have. -/
def statement (module : String) (names : NameSet) (lineLength : Nat) : String :=
  let line := "from " ++ module ++ " import " ++ ", ".intercalate names.names
  if line.utf8ByteSize ≤ lineLength then line
  else
    "from " ++ module ++ " import (\n" ++
      String.join (names.names.map fun name => tab ++ name ++ ",\n") ++ ")"

/-- The modules that the symbols are imported from. -/
def modules (symbols : NameSet) : NameSet :=
  NameSet.ofList (symbols.names.map fun symbol => (resolve symbol).1)

/-- The names that the symbols have in a module. -/
def namesIn (symbols : NameSet) (module : String) : NameSet :=
  NameSet.ofList ((symbols.names.map resolve).filterMap fun (m, name) =>
    if m = module then some name else none)

/-- The statements that import the symbols, each on lines of its own. -/
def format (symbols : NameSet) (lineLength : Nat) : String :=
  "\n".intercalate ((modules symbols).names.map fun module =>
    statement module (namesIn symbols module) lineLength)

end Imports

end TypeSketch
