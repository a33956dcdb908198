import TypeSketch.Json.Lexical

/-!
# JSON Documents

Whole documents: a value and nothing but blanks after it.

The members of an object stand in the order in which they were first named, and a
member that is named again takes its last value. Containers nest at most 127 deep.

The reader recurses on a fuel that bounds the depth of its calls. Of any two calls
in a chain one has read a character, so twice the length of the text, and two, is
enough fuel, and the reader never runs out.

## Main definitions

* `Json`: A document.
* `Json.parse`: The document that a text is.
* `Json.pointer?`: The part of a document that a JSON pointer names.
-/

namespace TypeSketch

/-- A JSON value. -/
inductive Json where
  | null
  | bool (b : Bool)
  | number (n : Json.Number)
  | str (s : String)
  | array (items : List Json)
  | object (members : List (String × Json))

namespace Json

/-- The number of containers that may be open at once, and one. -/
def depthLimit : Nat := 128

/-- A member set in a list of members: one that is there keeps its place. -/
def setMember (members : List (String × Json)) (key : String) (value : Json) :
    List (String × Json) :=
  match members with
  | [] => [(key, value)]
  | (k, v) :: rest =>
    if k = key then (k, value) :: rest else (k, v) :: setMember rest key value

mutual

/-- Reads a value. -/
def readValue (fuel depth : Nat) (cs : List Char) : Reading Json :=
  match fuel, skipBlanks cs with
  | 0, _ => .error .unfinishedValue
  | _, [] => .error .unfinishedValue
  | fuel + 1, c :: rest =>
    if c = 'n' then (readLiteral "ull".toList rest).map (null, ·)
    else if c = 't' then (readLiteral "rue".toList rest).map (bool true, ·)
    else if c = 'f' then (readLiteral "alse".toList rest).map (bool false, ·)
    else if c = '-' then (readNumber true rest).map fun (n, rest) => (number n, rest)
    else if c.isDigit then (readNumber false (c :: rest)).map fun (n, rest) => (number n, rest)
    else if c = '"' then (readString rest).map fun (s, rest) => (str s, rest)
    else if c = '[' then
      if depth ≤ 1 then .error .nestedTooDeeply else readElements fuel (depth - 1) [] true rest
    else if c = '\x7b' then
      if depth ≤ 1 then .error .nestedTooDeeply else readMembers fuel (depth - 1) [] true rest
    else .error .expectedValue

/-- Reads the elements of a list up to and including its closing bracket. Those that
    are read are in `items`, the last one first. -/
def readElements (fuel depth : Nat) (items : List Json) (isFirst : Bool) (cs : List Char) :
    Reading Json :=
  match fuel with
  | 0 => .error .unfinishedList
  | fuel + 1 =>
    match nextElement isFirst cs with
    | .error fault => .error fault
    | .ok (false, rest) => .ok (array items.reverse, rest.drop 1)
    | .ok (true, rest) =>
      match readValue fuel depth rest with
      | .error fault => .error fault
      | .ok (item, rest) => readElements fuel depth (item :: items) false rest

/-- Reads the members of an object up to and including its closing brace. -/
def readMembers (fuel depth : Nat) (members : List (String × Json)) (isFirst : Bool)
    (cs : List Char) : Reading Json :=
  match fuel with
  | 0 => .error .unfinishedObject
  | fuel + 1 =>
    match nextKey isFirst cs with
    | .error fault => .error fault
    | .ok (none, rest) => .ok (object members, rest.drop 1)
    | .ok (some key, rest) =>
      match readColon rest with
      | .error fault => .error fault
      | .ok rest =>
        match readValue fuel depth rest with
        | .error fault => .error fault
        | .ok (value, rest) => readMembers fuel depth (setMember members key value) false rest

end

/-- The document that a text is. -/
def parse (s : String) : Except Fault Json :=
  let cs := s.toList
  -- Each character takes at most two calls, so the fuel does not run out.
  match readValue (2 * cs.length + 2) depthLimit cs with
  | .error fault => .error fault
  | .ok (json, rest) => if (skipBlanks rest).isEmpty then .ok json else .error .trailingCharacters

/-- A segment of a JSON pointer without its escapes: `~1` stands for a slash and `~0`
    for a tilde. -/
def unescapeSegment : List Char → List Char
  | '~' :: '1' :: rest => '/' :: unescapeSegment rest
  | '~' :: '0' :: rest => '~' :: unescapeSegment rest
  | c :: rest => c :: unescapeSegment rest
  | [] => []

/-- The index that a segment of a JSON pointer writes: digits, without a leading
    zero. -/
def segmentIndex? (segment : List Char) : Option Nat :=
  if segment.isEmpty || !segment.all Char.isDigit then none
  else if segment.head? = some '0' ∧ 1 < segment.length then none
  else some (segment.foldl (fun n c => n * 10 + digitValue c) 0)

/-- The part of a document that the segments lead to. -/
def descend? (json : Json) : List (List Char) → Option Json
  | [] => some json
  | segment :: segments =>
    match json with
    | object members =>
      match members.lookup (String.ofList segment) with
      | some value => value.descend? segments
      | none => none
    | array items =>
      match (segmentIndex? segment).bind (items[·]?) with
      | some item => item.descend? segments
      | none => none
    | _ => none

/-- The part of a document that a pointer names: the whole for the empty pointer,
    else a part reached by segments that each follow a slash. -/
def pointer? (json : Json) (pointer : String) : Option Json :=
  match pointer.toList with
  | [] => some json
  | '/' :: rest => json.descend? ((rest.splitOn '/').map unescapeSegment)
  | _ => none

end Json

end TypeSketch
