/-!
# Type Expressions

What stands where a type is used: a name, or a constructor applied to arguments. The
three dots of a tuple of any size are a name among its arguments.

## Main definitions

* `TypeExpr`: Type expressions.
* `TypeExpr.text`: Their text.
-/

namespace TypeSketch

/-- A type where it is used. -/
inductive TypeExpr where
  | name (text : String)
  | apply (constructor : String) (arguments : List TypeExpr)
deriving Repr

namespace TypeExpr

instance : Inhabited TypeExpr := ⟨.name ""⟩

mutual

/-- The text of a type. -/
def text : TypeExpr → String
  | name s => s
  | apply constructor arguments => constructor ++ "[" ++ ", ".intercalate (texts arguments) ++ "]"

def texts : List TypeExpr → List String
  | [] => []
  | e :: rest => text e :: texts rest

end

end TypeExpr

end TypeSketch
