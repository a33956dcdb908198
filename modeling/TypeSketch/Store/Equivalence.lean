import TypeSketch.Text.Lines

/-!
# Equivalent Modules

Two modules are equivalent if they have the same significant lines: all but blank
lines, comments and import statements. A statement that opens a parenthesis at the end
of its line goes on to the line that starts with the closing one.

## Main definitions

* `Equivalence.isImport`: Whether a line starts an import statement.
* `Equivalence.significantLines`: The lines that count.
* `Equivalence.areEquivalent`: Whether two modules are equivalent.
-/

namespace TypeSketch

namespace Equivalence

/-- Whether the characters are the word `import` with white space behind it. -/
def startsImport (cs : List Char) : Bool :=
  match Text.dropStart? "import".toList cs with
  | some (c :: _) => Unicode.isBlank c
  | _ => false

/-- What follows the white space at the start, if there is some. -/
def skipSomeBlanks? (cs : List Char) : Option (List Char) :=
  match cs with
  | c :: rest => if Unicode.isBlank c then some (rest.dropWhile Unicode.isBlank) else none
  | [] => none

/-- Whether the characters are the word `from`, another word and an import. -/
def startsFromImport (cs : List Char) : Bool :=
  match (Text.dropStart? "from".toList cs).bind skipSomeBlanks? with
  | none => false
  | some rest =>
    let module := rest.takeWhile (!Unicode.isBlank ·)
    match skipSomeBlanks? (rest.dropWhile (!Unicode.isBlank ·)) with
    | some rest => !module.isEmpty && startsImport rest
    | none => false

/-- Whether a line without the white space around it starts an import statement. -/
def isImport (trimmed : List Char) : Bool :=
  startsImport trimmed || startsFromImport trimmed

/-- The lines that count. The flag says whether an import statement is open. -/
def significant (inImport : Bool) : List (List Char) → List (List Char)
  | [] => []
  | line :: rest =>
    let trimmed := Text.trimChars line
    if inImport then significant (trimmed.head? ≠ some ')') rest
    else if isImport trimmed then significant (trimmed.getLast? = some '(') rest
    else if trimmed.isEmpty || trimmed.head? = some '#' then significant false rest
    else line :: significant false rest

/-- The lines of a module that count. -/
def significantLines (module : String) : List (List Char) :=
  significant false (Text.splitLines module.toList)

/-- Whether two modules have the same lines that count. -/
def areEquivalent (a b : String) : Bool :=
  significantLines a = significantLines b

end Equivalence

end TypeSketch
