import TypeSketch.Text.Lines
import TypeSketch.Unicode.Uppercase
import TypeSketch.Value.Basic

/-!
# Names

Which texts can name a field or a type, and how the name of a nested type is made
from the name of the type around it.

A nested type is named after its parent and the way to it: the text of a mapping's
key, or the type name of a sequence's item, in upper camel case. Camel case drops
what cannot stand in an identifier, so a key may leave nothing over; then its
position names it, and the part that is appended is never empty.

## Main definitions

* `Naming.isIdentifier`: A text that can name a field or a type.
* `Naming.upperCamel`: A text in upper camel case.
* `ChildKey`: The way from a value to a part of it.
* `ChildKey.suffix`, `Naming.childName`: The name of a nested type.
-/

namespace TypeSketch

namespace Naming

/-- The words that the declaration language reserves. -/
def keywords : List String :=
  ["False", "None", "True", "and", "as", "assert", "async", "await", "break", "class",
   "continue", "def", "del", "elif", "else", "except", "finally", "for", "from", "global",
   "if", "import", "in", "is", "lambda", "nonlocal", "not", "or", "pass", "raise", "return",
   "try", "while", "with", "yield"]

/-- Whether the characters form a word that could be an identifier. -/
def isWord : List Char → Bool
  | [] => false
  | c :: rest => (c = '_' || Unicode.isIdentifierStart c) && rest.all Unicode.isIdentifierContinue

/-- Whether `s` can name a field or a type. -/
def isIdentifier (s : String) : Bool :=
  isWord s.toList && !keywords.contains s

/-- Whether `c` separates the words of a text: the underscore and all that cannot
    stand in an identifier. -/
def isSeparator (c : Char) : Bool :=
  c = '_' || !Unicode.isIdentifierContinue c

/-- The characters in upper camel case. The flag says whether a word would start
    here. -/
def camel (atStart : Bool) : List Char → List Char
  | [] => []
  | c :: rest =>
    if isSeparator c then camel true rest
    else (if atStart then Unicode.upperCase c else [c]) ++ camel false rest

/-- The words of a text without what separates them, each with its first character
    in upper case and the others as they are. -/
def upperCamel (s : String) : String :=
  String.ofList (camel true s.toList)

end Naming

/-- The way from a value to a part of it: a mapping's key and its position among the
    keys, or the item of a sequence. -/
inductive ChildKey where
  | field (key : Value) (position : Nat)
  | element (item : Value)

namespace ChildKey

/-- The text that the name is made from. -/
def describe : ChildKey → String
  | field key _ => key.keyText
  | element item => item.typeName

/-- The name for a part whose text has nothing in it that can stand in a name. -/
def fallback : ChildKey → String
  | field _ position => "Field" ++ toString (position + 1)
  | element _ => "Element"

/-- What is appended to the name of the parent. -/
def suffix (key : ChildKey) : String :=
  let camel := Naming.upperCamel key.describe
  if camel.isEmpty then key.fallback else camel

end ChildKey

namespace Naming

/-- The name of a nested type. -/
def childName (parent : String) (key : ChildKey) : String :=
  parent ++ key.suffix

/-- What follows `start` in a name, if the name starts with it. -/
def dropStart? (start name : String) : Option String :=
  (Text.dropStart? start.toList name.toList).map String.ofList

end Naming

end TypeSketch
