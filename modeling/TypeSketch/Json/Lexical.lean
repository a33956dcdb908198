import TypeSketch.Json.Number

/-!
# Words of JSON

Reading the words that JSON texts are made of: blanks, literals, strings and what
stands between the parts of lists and objects.

A string is read one character at a time. Between two characters the reader is in
the text, after a backslash, among the four digits of an escape, or it waits for
the second half of a pair of surrogates, and it keeps the characters read so far.

## Main definitions

* `Json.skipBlanks`, `Json.readLiteral`: Blanks and literals.
* `Json.StringState`, `Json.readString`: Strings after their opening quote.
* `Json.skipString`: The same without a look at surrogates.
* `Json.nextElement`, `Json.nextKey`, `Json.readColon`: Between the parts.
-/

namespace TypeSketch

namespace Json

/-- The text without the blanks at its start. -/
def skipBlanks (cs : List Char) : List Char :=
  cs.dropWhile fun c => c = ' ' || c = '\n' || c = '\t' || c = '\r'

/-- Reads the rest of a literal. -/
def readLiteral (rest cs : List Char) : Except Fault (List Char) :=
  match rest, cs with
  | [], cs => .ok cs
  | _ :: _, [] => .error .unfinishedValue
  | e :: rest, c :: cs => if e = c then readLiteral rest cs else .error .expectedLiteral

/-- The character that a backslash and this one stand for. -/
def simpleEscape? (c : Char) : Option Char :=
  match c with
  | '"' => some '"'
  | '\\' => some '\\'
  | '/' => some '/'
  | 'b' => some '\x08'
  | 'f' => some '\x0c'
  | 'n' => some '\n'
  | 'r' => some '\r'
  | 't' => some '\t'
  | _ => none

/-- The value of a hexadecimal digit. -/
def hexDigit? (c : Char) : Option Nat :=
  if c.isDigit then some (c.toNat - '0'.toNat)
  else if 'a' ≤ c ∧ c ≤ 'f' then some (c.toNat - 'a'.toNat + 10)
  else if 'A' ≤ c ∧ c ≤ 'F' then some (c.toNat - 'A'.toNat + 10)
  else none

/-- Whether four bytes follow, the least that an escape with digits needs. -/
def hasFourBytes (cs : List Char) : Bool :=
  4 ≤ (cs.take 4).foldl (fun n c => n + c.utf8Size) 0

/-- Where the reader of a string is: in its text, after a backslash, before the last
    `missing` digits of an escape, after a first surrogate, and after the backslash
    that follows one. An escape that follows a first surrogate knows it. -/
inductive StringState where
  | text
  | escaped
  | digits (missing code : Nat) (first : Option Nat)
  | paired (first : Nat)
  | pairedEscaped (first : Nat)
deriving Repr, DecidableEq

def isFirstSurrogate (code : Nat) : Bool := 0xD800 ≤ code && code ≤ 0xDBFF

def isSecondSurrogate (code : Nat) : Bool := 0xDC00 ≤ code && code ≤ 0xDFFF

/-- What an escape with digits is once its code is known: a character, or the first
    half of a pair. -/
def finishEscape (first : Option Nat) (code : Nat) : Except Fault (Char ⊕ Nat) :=
  match first with
  | some high =>
    if isSecondSurrogate code then
      .ok (.inl (Char.ofNat ((high - 0xD800) * 0x400 + (code - 0xDC00) + 0x10000)))
    else .error .loneSurrogate
  | none =>
    if isSecondSurrogate code then .error .loneSurrogate
    else if isFirstSurrogate code then .ok (.inr code)
    else .ok (.inl (Char.ofNat code))

/-- Reads a string from a state on. The characters read so far are in `read`, the
    last one first. -/
def readStringFrom (state : StringState) (read : List Char) (cs : List Char) : Reading String :=
  match state, cs with
  | _, [] => .error .unfinishedString
  | .text, c :: rest =>
    if c = '"' then .ok (String.ofList read.reverse, rest)
    else if c = '\\' then readStringFrom .escaped read rest
    else if c.toNat < 0x20 then .error .controlCharacter
    else readStringFrom .text (c :: read) rest
  | .escaped, c :: rest =>
    match simpleEscape? c with
    | some d => readStringFrom .text (d :: read) rest
    | none =>
      if c ≠ 'u' then .error .invalidEscape
      -- Four bytes are looked for before the digits are, so the end of the text comes first.
      else if hasFourBytes rest then readStringFrom (.digits 4 0 none) read rest
      else .error .unfinishedString
  | .digits missing code first, c :: rest =>
    match hexDigit? c with
    | none => .error .invalidEscape
    | some d =>
      let code := code * 16 + d
      if 1 < missing then readStringFrom (.digits (missing - 1) code first) read rest
      else
        match finishEscape first code with
        | .error fault => .error fault
        | .ok (.inl d) => readStringFrom .text (d :: read) rest
        | .ok (.inr high) => readStringFrom (.paired high) read rest
  | .paired high, c :: rest =>
    if c = '\\' then readStringFrom (.pairedEscaped high) read rest
    else .error .unfinishedSurrogatePair
  | .pairedEscaped high, c :: rest =>
    if c ≠ 'u' then .error .unfinishedSurrogatePair
    else if hasFourBytes rest then readStringFrom (.digits 4 0 (some high)) read rest
    else .error .unfinishedString

/-- Reads a string after its opening quote. -/
def readString (cs : List Char) : Reading String :=
  readStringFrom .text [] cs

/-- Passes over a string from a state on. Escapes have to be complete, and what
    they denote does not matter. -/
def skipStringFrom (state : StringState) (cs : List Char) : Except Fault (List Char) :=
  match state, cs with
  | _, [] => .error .unfinishedString
  | .escaped, c :: rest =>
    if (simpleEscape? c).isSome then skipStringFrom .text rest
    else if c ≠ 'u' then .error .invalidEscape
    else if hasFourBytes rest then skipStringFrom (.digits 4 0 none) rest
    else .error .unfinishedString
  | .digits missing _ _, c :: rest =>
    if (hexDigit? c).isNone then .error .invalidEscape
    else skipStringFrom (if 1 < missing then .digits (missing - 1) 0 none else .text) rest
  | _, c :: rest =>
    if c = '"' then .ok rest
    else if c = '\\' then skipStringFrom .escaped rest
    else if c.toNat < 0x20 then .error .controlCharacter
    else skipStringFrom .text rest

/-- Passes over a string after its opening quote. -/
def skipString (cs : List Char) : Except Fault (List Char) :=
  skipStringFrom .text cs

/-- Reads what stands before an element of a list. The text that is left starts with
    the element, or with the closing bracket if the flag is false. -/
def nextElement (isFirst : Bool) (cs : List Char) : Reading Bool :=
  match skipBlanks cs with
  | [] => .error .unfinishedList
  | c :: rest =>
    if c = ']' then .ok (false, c :: rest)
    else if isFirst then .ok (true, c :: rest)
    else if c ≠ ',' then .error .expectedListCommaOrEnd
    else
      match skipBlanks rest with
      | [] => .error .unfinishedValue
      | d :: rest => if d = ']' then .error .trailingComma else .ok (true, d :: rest)

/-- Reads the opening quote and the rest of a key. -/
def readKey (cs : List Char) : Reading (Option String) :=
  match cs with
  | '"' :: rest => (readString rest).map fun (key, rest) => (some key, rest)
  | _ => .error .keyNotString

/-- Reads up to and including the next key of an object. Without one the text that is
    left starts with the closing brace. -/
def nextKey (isFirst : Bool) (cs : List Char) : Reading (Option String) :=
  match skipBlanks cs with
  | [] => .error .unfinishedObject
  | c :: rest =>
    if c = '\x7d' then .ok (none, c :: rest)
    else if isFirst then readKey (c :: rest)
    else if c ≠ ',' then .error .expectedObjectCommaOrEnd
    else
      match skipBlanks rest with
      | [] => .error .unfinishedValue
      | d :: rest => if d = '\x7d' then .error .trailingComma else readKey (d :: rest)

/-- Reads the colon after a key. -/
def readColon (cs : List Char) : Except Fault (List Char) :=
  match skipBlanks cs with
  | [] => .error .unfinishedObject
  | c :: rest => if c = ':' then .ok rest else .error .expectedColon

end Json

end TypeSketch
