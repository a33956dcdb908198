import TypeSketch.Unicode.Classes

/-!
# Lines

A text as the list of its lines, and the text without the white space around it.

A line ends with a line feed, or with a carriage return and a line feed, and its
end does not belong to it. A carriage return alone ends nothing. The last line
may lack its end, and a text that ends with one has no empty line after it.

## Main definitions

* `Text.splitLines`, `Text.lines`: The lines of a text.
* `Text.trim`: A text without leading and trailing white space.
* `Text.dropStart?`: What follows a given start.
-/

namespace TypeSketch

namespace Text

/-- The lines of a text, on its list of characters. -/
def splitLines : List Char → List (List Char)
  | [] => []
  | '\n' :: rest => [] :: splitLines rest
  | '\r' :: '\n' :: rest => [] :: splitLines rest
  | c :: rest =>
    match splitLines rest with
    | [] => [[c]]
    | line :: lines => (c :: line) :: lines

/-- The lines of a text, without their ends. -/
def lines (s : String) : List String :=
  (splitLines s.toList).map String.ofList

/-- The characters without the white space before the first and after the last
    that is none. -/
def trimChars (cs : List Char) : List Char :=
  ((cs.dropWhile Unicode.isBlank).reverse.dropWhile Unicode.isBlank).reverse

/-- The text without the white space around it. -/
def trim (s : String) : String :=
  String.ofList (trimChars s.toList)

/-- What follows `start` in `cs`, if `cs` starts with it. -/
def dropStart? : (start cs : List Char) → Option (List Char)
  | [], cs => some cs
  | _ :: _, [] => none
  | s :: start, c :: cs => if s = c then dropStart? start cs else none

end Text

end TypeSketch
