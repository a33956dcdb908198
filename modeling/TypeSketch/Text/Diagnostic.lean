import TypeSketch.Unicode.Classes
import TypeSketch.Unicode.Unprintable

/-!
# Strings in Diagnostics

A string as a diagnostic shows it: in quotes, with the quote and the backslash
escaped, the common control characters by a letter, and every other character
that does not show by itself by its code.

## Main definitions

* `Text.diagnostic`: A string in quotes.
-/

namespace TypeSketch

namespace Text

/-- A character as a diagnostic shows it inside quotes. -/
def diagnosticChar (c : Char) : List Char :=
  match c with
  | '\x00' => ['\\', '0']
  | '\t' => ['\\', 't']
  | '\r' => ['\\', 'r']
  | '\n' => ['\\', 'n']
  | '\\' => ['\\', '\\']
  | '"' => ['\\', '"']
  | _ =>
    if Unicode.inRanges c.toNat Unicode.unprintableRanges then
      ['\\', 'u', '\x7b'] ++ Nat.toDigits 16 c.toNat ++ ['\x7d']
    else [c]

/-- A string in quotes. -/
def diagnostic (s : String) : String :=
  String.ofList ('"' :: s.toList.flatMap diagnosticChar ++ ['"'])

end Text

end TypeSketch
