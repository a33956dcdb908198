import TypeSketch.Unicode.Classes

/-!
# String Literals

A text as it is written inside a string literal of the declaration language, in
single or triple double quotes. Backslashes, quotes and control characters are
escaped, so a literal stays on one line and ends where it should.

## Main definitions

* `Text.escape`: A text inside quotes.
-/

namespace TypeSketch

namespace Text

/-- A character as it is written inside quotes. A control character has a code below
    256, which two digits write. -/
def escapeChar (c : Char) : List Char :=
  match c with
  | '\\' => ['\\', '\\']
  | '"' => ['\\', '"']
  | '\n' => ['\\', 'n']
  | '\r' => ['\\', 'r']
  | '\t' => ['\\', 't']
  | _ =>
    if Unicode.isControl c then
      ['\\', 'x', Nat.digitChar (c.toNat / 16), Nat.digitChar (c.toNat % 16)]
    else [c]

/-- A text as it is written inside quotes. -/
def escape (s : String) : String :=
  String.ofList (s.toList.flatMap escapeChar)

end Text

end TypeSketch
