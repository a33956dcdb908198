import TypeSketch.Render.Session

/-!
# Modules

The text of a module: a header, the import statements with an empty line after them,
if there are any, and the declarations.

## Main definitions

* `Session.moduleText`: The module of a session.
* `TypeTree.module`: The module of one tree.
-/

namespace TypeSketch

/-- The first line of every file that is written. -/
def header : String := "# Class automatically generated. DO NOT MODIFY."

/-- The import statements for the symbols of a session. -/
def Session.importText (session : Session) (lineLength : Nat) : String :=
  Imports.format session.symbols lineLength

/-- The module of a session. -/
def Session.moduleText (session : Session) : String :=
  let imports := session.importText Imports.defaultLineLength
  header ++ "\n" ++ (if imports.isEmpty then "" else imports ++ "\n\n") ++
    session.declarationsText ++ "\n"

/-- The module of one tree. -/
def TypeTree.module (s : Strategies) (t : TypeTree) : Except InferenceError String :=
  (t.render s).map Session.moduleText

end TypeSketch
