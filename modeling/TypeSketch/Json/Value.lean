import TypeSketch.Json.Document
import TypeSketch.Value.Basic

/-!
# Documents as Values

The example value that a JSON document is. What an array becomes is a choice; as a
set it keeps each item once. An integer that fits 64 bits with its sign is an integer,
and every other number is a float.

## Main definitions

* `Json.toValue`: The value of a document.
-/

namespace TypeSketch

namespace Json

/-- The atom of a number. -/
def Number.toAtom : Number → Atom
  | .real x => .float x
  | .integer i =>
    if i < 0x8000000000000000 then .int i else .float (Binary64.ofRatio false i.toNat 1)

/-- The items of an array as a sequence of a kind. -/
def sequenceOfItems (arrays : SequenceKind) (items : List Value) : Value :=
  .sequence arrays (if arrays = .set then Value.distinct items else items)

mutual

/-- The value of a document, with its arrays as sequences of a kind. -/
def toValue (arrays : SequenceKind) : Json → Value
  | null => .atom .none
  | bool b => .atom (.bool b)
  | number n => .atom n.toAtom
  | str s => .atom (.str s)
  | array items => sequenceOfItems arrays (itemValues arrays items)
  | object members => .mapping (memberEntries arrays members)

def itemValues (arrays : SequenceKind) : List Json → List Value
  | [] => []
  | item :: rest => toValue arrays item :: itemValues arrays rest

def memberEntries (arrays : SequenceKind) : List (String × Json) → List (Value × Value)
  | [] => []
  | (key, value) :: rest => (.atom (.str key), toValue arrays value) :: memberEntries arrays rest

end

end Json

end TypeSketch
