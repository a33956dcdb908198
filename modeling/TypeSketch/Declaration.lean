import TypeSketch.Imports
import TypeSketch.Text.Literal
import TypeSketch.TypeExpr

/-!
# Declarations

A type with the name that it is declared under. An alias is an assignment. A record
is a class with a line for each field, or, if one of its keys cannot name a field,
an assignment with the keys as string literals.

## Main definitions

* `Declaration`: Declarations.
* `Declaration.text`: The text of a declaration.
-/

namespace TypeSketch

/-- A named type. -/
inductive Declaration where
  | aliasOf (name : String) (type : TypeExpr)
  | record (name : String) (doc : Option String) (fields : List (String × TypeExpr))
  | functionalRecord (name : String) (fields : List (String × TypeExpr))
deriving Repr

namespace Declaration

instance : Inhabited Declaration := ⟨.aliasOf "" default⟩

open Imports (tab)

/-- The name under which the type is declared. -/
def name : Declaration → String
  | aliasOf name _ => name
  | record name .. => name
  | functionalRecord name _ => name

/-- The lines in the body of a class, each after a line feed. -/
def bodyText (doc : Option String) (fields : List (String × TypeExpr)) : String :=
  let docText :=
    match doc with
    | some doc => "\n" ++ tab ++ "\"\"\"" ++ Text.escape doc ++ "\"\"\""
    | none => if fields.isEmpty then "\n" ++ tab ++ "pass" else ""
  docText ++ String.join (fields.map fun (key, type) =>
    "\n" ++ tab ++ key ++ ": " ++ type.text)

/-- The text of a declaration. -/
def text : Declaration → String
  | aliasOf name type => name ++ " = " ++ type.text
  | record name doc fields => "class " ++ name ++ "(TypedDict):" ++ bodyText doc fields
  | functionalRecord name fields =>
    name ++ " = TypedDict(\n" ++ tab ++ "\"" ++ name ++ "\",\n" ++ tab ++ "\x7b\n" ++
      String.join (fields.map fun (key, type) =>
        tab ++ tab ++ "\"" ++ Text.escape key ++ "\": " ++ type.text ++ ",\n") ++
      tab ++ "\x7d,\n)"

end Declaration

end TypeSketch
