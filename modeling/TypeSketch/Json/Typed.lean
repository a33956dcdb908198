import TypeSketch.Binary64.Text
import TypeSketch.Json.Lexical
import TypeSketch.Text.Diagnostic

/-!
# Typed Reading of JSON

Reading a text as a value of a known type. A decoder takes a text, reads a value of
its type from the start of it and leaves the rest, and a failure tells where in the
value it happened.

The place of a failure is the way down to the innermost part that was being read.
While the next key of an object is being read the way ends in `?`, since the key is
not known yet.

A record is read from an object or from a list of its fields in order. Two kinds of
records are told apart by a flag each: whether fields may be absent, which then keep
the values they have, and whether members that are no fields are refused or passed
over.

## Main definitions

* `Json.Segment`, `Json.TypedFault`, `Json.PathError`: Failures and their wording.
* `Json.Decoder`: Readers of typed values.
* `Json.integer`, `Json.boolean`, `Json.string`, `Json.choice`: Simple values.
* `Json.sequenceOf`, `Json.mapOf`, `Json.RecordFormat`: Values with parts.
-/

namespace TypeSketch

namespace Json

/-- A step on the way to a part of a value; the last one stands for a key that is
    not read yet. -/
inductive Segment where
  | index (i : Nat)
  | member (name : String)
  | unread
deriving Repr, DecidableEq

/-- Why a text is not a value of its type. -/
inductive TypedFault where
  | syntaxFault (fault : Fault)
  | wrongType (found expected : String)
  | outOfRange (i : Int) (expected : String)
  | unknownField (name : String) (fields : List String)
  | unknownVariant (name : String) (variants : List String)
  | duplicateField (name : String)
  | missingField (name : String)
  | wrongLength (length : Nat) (expected : String)
  | refused (reason : String)
deriving Repr, DecidableEq

/-- A fault and the way to the part it was found in. -/
structure PathError where
  path : List Segment
  fault : TypedFault
deriving Repr, DecidableEq

/-- A choice of names. -/
def oneOf (names : List String) : String :=
  let quoted := names.map fun name => "`" ++ name ++ "`"
  match quoted with
  | [] => "nothing"
  | [name] => name
  | [first, second] => first ++ " or " ++ second
  | _ => "one of " ++ ", ".intercalate quoted

/-- The wording of a fault. -/
def TypedFault.message : TypedFault → String
  | syntaxFault fault => fault.message
  | wrongType found expected => "invalid type: " ++ found ++ ", expected " ++ expected
  | outOfRange i expected =>
    "invalid value: integer `" ++ toString i ++ "`, expected " ++ expected
  | unknownField name fields => "unknown field `" ++ name ++ "`, expected " ++ oneOf fields
  | unknownVariant name variants =>
    "unknown variant `" ++ name ++ "`, expected " ++ oneOf variants
  | duplicateField name => "duplicate field `" ++ name ++ "`"
  | missingField name => "missing field `" ++ name ++ "`"
  | wrongLength length expected =>
    "invalid length " ++ toString length ++ ", expected " ++ expected
  | refused reason => reason

/-- The text of the further segments of a way. -/
def segmentsText : List Segment → String
  | [] => ""
  | .index i :: rest => "[" ++ toString i ++ "]" ++ segmentsText rest
  | .member name :: rest => "." ++ name ++ segmentsText rest
  | .unread :: rest => ".?" ++ segmentsText rest

/-- The text of a way: members after points, indices in brackets, and a point for the
    value itself. -/
def pathText : List Segment → String
  | [] => "."
  | .index i :: rest => "[" ++ toString i ++ "]" ++ segmentsText rest
  | .member name :: rest => name ++ segmentsText rest
  | .unread :: rest => "?" ++ segmentsText rest

namespace PathError

/-- The failure seen from one step further up. -/
def under (segment : Segment) (e : PathError) : PathError :=
  { e with path := segment :: e.path }

/-- The wording of a failure. -/
def message (e : PathError) : String :=
  "at JSON path " ++ pathText e.path ++ " → " ++ e.fault.message

end PathError

/-- A reader of values of a type: the value and the rest of the text. -/
abbrev Decoder (α : Type) := List Char → Except PathError (α × List Char)

/-- A fault in the value itself. -/
def fail {α : Type} (fault : TypedFault) : Except PathError α :=
  .error ⟨[], fault⟩

/-- A fault of the text, found in the value itself. -/
def located {α : Type} : Except Fault α → Except PathError α
  | .ok a => .ok a
  | .error fault => fail (.syntaxFault fault)

/-- How a number is called in a fault. -/
def Number.describe : Number → String
  | .integer i => "integer `" ++ toString i ++ "`"
  | .real x => "floating point `" ++ x.pointedText ++ "`"

/-- How the value at the start of the text is called in a fault. The whole value is
    read for it, except of a list or an object. -/
def describe (cs : List Char) : Except Fault String :=
  match cs with
  | [] => .error .unfinishedValue
  | c :: rest =>
    if c = 'n' then (readLiteral "ull".toList rest).map fun _ => "null"
    else if c = 't' then (readLiteral "rue".toList rest).map fun _ => "boolean `true`"
    else if c = 'f' then (readLiteral "alse".toList rest).map fun _ => "boolean `false`"
    else if c = '-' then (readNumber true rest).map fun (n, _) => n.describe
    else if c.isDigit then (readNumber false cs).map fun (n, _) => n.describe
    else if c = '"' then (readString rest).map fun (s, _) => "string " ++ Text.diagnostic s
    else if c = '[' then .ok "sequence"
    else if c = '\x7b' then .ok "map"
    else .error .expectedValue

/-- The failure of a value that is not of the expected type. -/
def mismatch {α : Type} (expected : String) (cs : List Char) : Except PathError α :=
  match describe cs with
  | .ok found => fail (.wrongType found expected)
  | .error fault => fail (.syntaxFault fault)

/-- Reads an integer between two bounds. -/
def integer (low high : Int) (expected : String) : Decoder Int := fun cs =>
  let cs := skipBlanks cs
  let number? : Option (Reading Number) :=
    match cs with
    | '-' :: rest => some (readNumber true rest)
    | c :: _ => if c.isDigit then some (readNumber false cs) else none
    | [] => none
  match number? with
  | none => mismatch expected cs
  | some (.error fault) => fail (.syntaxFault fault)
  | some (.ok (.real x, _)) => fail (.wrongType (Number.real x).describe expected)
  | some (.ok (.integer i, rest)) =>
    if low ≤ i ∧ i ≤ high then .ok (i, rest) else fail (.outOfRange i expected)

/-- Reads a truth value. -/
def boolean : Decoder Bool := fun cs =>
  match skipBlanks cs with
  | 't' :: rest => located ((readLiteral "rue".toList rest).map (true, ·))
  | 'f' :: rest => located ((readLiteral "alse".toList rest).map (false, ·))
  | cs => mismatch "a boolean" cs

/-- Reads a string. -/
def string (expected : String) : Decoder String := fun cs =>
  match skipBlanks cs with
  | '"' :: rest => located (readString rest)
  | cs => mismatch expected cs

/-- Reads a string and what it stands for. -/
def refine {α : Type} (expected : String) (read : String → Except String α) : Decoder α :=
  fun cs => do
    let (s, rest) ← string expected cs
    match read s with
    | .ok a => .ok (a, rest)
    | .error reason => fail (.refused reason)

/-- Reads a null. -/
def unit : Decoder Unit := fun cs =>
  match skipBlanks cs with
  | 'n' :: rest => located ((readLiteral "ull".toList rest).map ((), ·))
  | cs => mismatch "unit" cs

/-- The value of a variant. -/
def variant {α : Type} (variants : List (String × α)) (name : String) : Except PathError α :=
  match variants.lookup name with
  | some a => .ok a
  | none => fail (.unknownVariant name (variants.map (·.1)))

/-- Reads one of some names: as a string, or as an object with the name as its only
    key and a null as its value. -/
def choice {α : Type} (variants : List (String × α)) : Decoder α := fun cs =>
  match skipBlanks cs with
  | [] => fail (.syntaxFault .unfinishedValue)
  | '"' :: rest => do
    let (name, rest) ← located (readString rest)
    let a ← variant variants name
    .ok (a, rest)
  | '\x7b' :: rest => do
    let (name, rest) ← string "variant identifier" rest
    let a ← variant variants name
    let rest ← located (readColon rest)
    let (_, rest) ← (unit rest).mapError (·.under (.member name))
    match skipBlanks rest with
    | [] => fail (.syntaxFault .unfinishedObject)
    | '\x7d' :: rest => .ok (a, rest)
    | _ => fail (.syntaxFault .expectedValue)
  | _ => fail (.syntaxFault .expectedValue)

/-- Reads the elements of a list up to and including its closing bracket. Those that
    are read are in `items`, the last one first. -/
def elements {α : Type} (item : Decoder α) (fuel : Nat) (items : List α) (cs : List Char) :
    Except PathError (List α × List Char) :=
  match fuel with
  | 0 => fail (.syntaxFault .unfinishedList)
  | fuel + 1 => do
    let (more, rest) ← located (nextElement items.isEmpty cs)
    if more then
      let (a, rest) ← (item rest).mapError (·.under (.index items.length))
      elements item fuel (a :: items) rest
    else .ok (items.reverse, rest.drop 1)

/-- Reads a list. -/
def sequenceOf {α : Type} (item : Decoder α) : Decoder (List α) := fun cs =>
  match skipBlanks cs with
  | '[' :: rest => elements item (rest.length + 1) [] rest
  | cs => mismatch "a sequence" cs

/-- A value set under a name: one that is there keeps its place. -/
def setNamed {α : Type} (members : List (String × α)) (name : String) (a : α) :
    List (String × α) :=
  match members with
  | [] => [(name, a)]
  | (n, b) :: rest => if n = name then (n, a) :: rest else (n, b) :: setNamed rest name a

/-- Reads the members of an object up to and including its closing brace. -/
def members {α : Type} (value : Decoder α) (fuel : Nat) (isFirst : Bool)
    (read : List (String × α)) (cs : List Char) :
    Except PathError (List (String × α) × List Char) :=
  match fuel with
  | 0 => fail (.syntaxFault .unfinishedObject)
  | fuel + 1 => do
    let (key, rest) ← (located (nextKey isFirst cs)).mapError (·.under .unread)
    match key with
    | none => .ok (read, rest.drop 1)
    | some name =>
      let rest ← located (readColon rest)
      let (a, rest) ← (value rest).mapError (·.under (.member name))
      members value fuel false (setNamed read name a) rest

/-- Reads an object whose values have one type, in the order in which its keys are
    first named and each with its last value. -/
def mapOf {α : Type} (value : Decoder α) : Decoder (List (String × α)) := fun cs =>
  match skipBlanks cs with
  | '\x7b' :: rest => members value (rest.length + 1) true [] rest
  | cs => mismatch "a map" cs

/-- Reads a key of a member that is passed over, and its colon. -/
def skipKey (cs : List Char) : Except Fault (List Char) :=
  match skipBlanks cs with
  | [] => .error .unfinishedObject
  | '"' :: rest => (skipString rest).bind readColon
  | _ => .error .keyNotString

/-- Passes over a value. The open containers are in `opened`, the innermost first and
    an object as `true`; the flag says whether a value is due or has been passed. -/
def skipFrom (fuel : Nat) (due : Bool) (opened : List Bool) (cs : List Char) :
    Except Fault (List Char) :=
  match fuel, due, opened with
  | _, false, [] => .ok cs
  | 0, _, _ => .error .unfinishedValue
  | fuel + 1, false, isObject :: outer =>
    match skipBlanks cs with
    | [] => .error (if isObject then .unfinishedObject else .unfinishedList)
    | c :: rest =>
      if c = (if isObject then '\x7d' else ']') then skipFrom fuel false outer rest
      else if c ≠ ',' then
        .error (if isObject then .expectedObjectCommaOrEnd else .expectedListCommaOrEnd)
      else if isObject then
        match skipKey rest with
        | .error fault => .error fault
        | .ok rest => skipFrom fuel true (true :: outer) rest
      else skipFrom fuel true (false :: outer) rest
  | fuel + 1, true, opened =>
    match skipBlanks cs with
    | [] => .error .unfinishedValue
    | c :: rest =>
      if c = '[' then
        match skipBlanks rest with
        | [] => .error .unfinishedList
        | d :: after =>
          if d = ']' then skipFrom fuel false opened after
          else skipFrom fuel true (false :: opened) (d :: after)
      else if c = '\x7b' then
        match skipBlanks rest with
        | [] => .error .unfinishedObject
        | d :: after =>
          if d = '\x7d' then skipFrom fuel false opened after
          else
            match skipKey (d :: after) with
            | .error fault => .error fault
            | .ok rest => skipFrom fuel true (true :: opened) rest
      else
        let passed :=
          if c = 'n' then readLiteral "ull".toList rest
          else if c = 't' then readLiteral "rue".toList rest
          else if c = 'f' then readLiteral "alse".toList rest
          else if c = '-' then skipNumber rest
          else if c.isDigit then skipNumber (c :: rest)
          else if c = '"' then skipString rest
          else .error .expectedValue
        match passed with
        | .error fault => .error fault
        | .ok rest => skipFrom fuel false opened rest

/-- Passes over a value of any type. -/
def skipValue (cs : List Char) : Except Fault (List Char) :=
  skipFrom (2 * cs.length + 2) true [] cs

/-- A field of a record: its name, and the reader that sets it. -/
structure Field (σ : Type) where
  name : String
  read : σ → Decoder σ

/-- The format of a record: its name in faults, its fields in order, whether fields
    may be absent and whether other members are refused. -/
structure RecordFormat (σ : Type) where
  name : String
  fields : List (Field σ)
  optional : Bool
  closed : Bool

namespace RecordFormat

variable {σ : Type}

/-- The first field that has not been set and has to be. -/
def missing? (format : RecordFormat σ) (seen : List String) : Option String :=
  if format.optional then none
  else (format.fields.find? fun field => !seen.contains field.name).map (·.name)

/-- Reads the members of a record up to and including its closing brace. -/
def readMembers (format : RecordFormat σ) (fuel : Nat) (isFirst : Bool) (seen : List String)
    (record : σ) (cs : List Char) : Except PathError (σ × List Char) :=
  match fuel with
  | 0 => fail (.syntaxFault .unfinishedObject)
  | fuel + 1 => do
    let (key, rest) ← (located (nextKey isFirst cs)).mapError (·.under .unread)
    match key with
    | none =>
      match format.missing? seen with
      | some name => fail (.missingField name)
      | none => .ok (record, rest.drop 1)
    | some name =>
      match format.fields.find? (·.name = name) with
      | none =>
        if format.closed then
          .error ⟨[.member name], .unknownField name (format.fields.map (·.name))⟩
        else
          let rest ← located (readColon rest)
          let rest ← (located (skipValue rest)).mapError (·.under (.member name))
          readMembers format fuel false seen record rest
      | some field =>
        if seen.contains name then fail (.duplicateField name)
        else
          let rest ← located (readColon rest)
          let (record, rest) ← (field.read record rest).mapError (·.under (.member name))
          readMembers format fuel false (name :: seen) record rest

/-- Reads what follows the last field of a record in a list. -/
def readListEnd (cs : List Char) : Except Fault (List Char) :=
  match skipBlanks cs with
  | [] => .error .unfinishedList
  | c :: rest =>
    if c = ']' then .ok rest
    else if c ≠ ',' then .error .trailingCharacters
    else
      match skipBlanks rest with
      | ']' :: _ => .error .trailingComma
      | _ => .error .trailingCharacters

/-- How a record of a fixed number of fields is called in a fault. -/
def lengthText (format : RecordFormat σ) : String :=
  let count := format.fields.length
  "struct " ++ format.name ++ " with " ++ toString count ++
    (if count = 1 then " element" else " elements")

/-- Reads the fields of a record in a list from a position on, up to and including
    the closing bracket. -/
def readElements (format : RecordFormat σ) (fields : List (Field σ)) (position : Nat)
    (record : σ) (cs : List Char) : Except PathError (σ × List Char) :=
  match fields with
  | [] => (located (readListEnd cs)).map (record, ·)
  | field :: fields => do
    let (more, rest) ← located (nextElement (position = 0) cs)
    if more then
      let (record, rest) ← (field.read record rest).mapError (·.under (.index position))
      readElements format fields (position + 1) record rest
    else if format.optional then .ok (record, rest.drop 1)
    else fail (.wrongLength position format.lengthText)

/-- Reads a record, starting from the values that absent fields keep. -/
def read (format : RecordFormat σ) (initial : σ) : Decoder σ := fun cs =>
  match skipBlanks cs with
  | '\x7b' :: rest => format.readMembers (rest.length + 1) true [] initial rest
  | '[' :: rest => format.readElements format.fields 0 initial rest
  | cs => mismatch ("struct " ++ format.name) cs

end RecordFormat

/-- The value at the start of a text. What follows it is left alone. -/
def decode {α : Type} (decoder : Decoder α) (s : String) : Except PathError α :=
  (decoder s.toList).map (·.1)

end Json

end TypeSketch
