import TypeSketch.Unicode.IdentifierStart
import TypeSketch.Unicode.IdentifierContinue

/-!
# Character Classes

The four classes of characters that names and texts are read by: the two that
make up identifiers, white space and control characters.

The identifier classes are looked up in their range tables. White space and
control characters have so few ranges that they are written out here.

## Main definitions

* `inRanges`: Membership in an ascending list of ranges.
* `isIdentifierStart`, `isIdentifierContinue`: The classes of identifiers.
* `isBlank`: The property `White_Space`.
* `isControl`: The general category `Cc`.
-/

namespace TypeSketch

namespace Unicode

/-- Whether `code` lies in one of the ranges, which are in ascending order. -/
def inRanges (code : Nat) : List (Nat × Nat) → Bool
  | [] => false
  | (first, last) :: rest =>
    if code < first then false else if code ≤ last then true else inRanges code rest

/-- Whether `c` may start an identifier, the underscore apart. -/
def isIdentifierStart (c : Char) : Bool :=
  inRanges c.toNat identifierStartRanges

/-- Whether `c` may stand inside an identifier. -/
def isIdentifierContinue (c : Char) : Bool :=
  inRanges c.toNat identifierContinueRanges

/-- The ranges of `White_Space`. -/
def blankRanges : List (Nat × Nat) :=
  [(0x09, 0x0D), (0x20, 0x20), (0x85, 0x85), (0xA0, 0xA0), (0x1680, 0x1680), (0x2000, 0x200A),
   (0x2028, 0x2029), (0x202F, 0x202F), (0x205F, 0x205F), (0x3000, 0x3000)]

/-- Whether `c` is white space. -/
def isBlank (c : Char) : Bool :=
  inRanges c.toNat blankRanges

/-- Whether `c` is a control character. -/
def isControl (c : Char) : Bool :=
  inRanges c.toNat [(0x00, 0x1F), (0x7F, 0x9F)]

end Unicode

end TypeSketch
