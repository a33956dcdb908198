import TypeSketch.Binary64.Text
import TypeSketch.Text.Utf8

/-!
# Example Values

The values that types are inferred from. A value is an atom, a sequence of items
or a mapping with its entries in order. Sequences come in five kinds that differ
in what they stand for and not in what they hold: the items of a set are kept in
the order and number in which they were given, and an iterator holds a sample of
what it yields.

A mapping may be any list of entries. `Value.ofEntries` is the way to one whose
keys differ, and keys are compared by `Value.same`: two values of different kinds
differ (`1`, `1.0` and `True` are three keys), sequences and mappings are compared
item by item in order, and floats as numbers, with one zero and one NaN.

## Main definitions

* `Atom`, `SequenceKind`, `Value`: The values.
* `AtomKind`, `ValueKind`, `Value.kind`: The kinds of values.
* `Value.typeName`: The name of a value's run-time type.
* `Value.keyText`: The text of a value that is a key.
* `Value.same`: Equality of keys.
* `Value.ofEntries`, `Value.sample`: Mappings with different keys, and iterators of
  bounded length.
-/

namespace TypeSketch

/-- A value without parts. The last one is an instance of a type that only its name
    is known of. -/
inductive Atom where
  | none
  | bool (b : Bool)
  | int (i : Int)
  | float (x : Binary64)
  | str (s : String)
  | bytes (b : List UInt8)
  | named (typeName : String)
deriving Repr, DecidableEq

/-- What a sequence of items stands for. -/
inductive SequenceKind where
  | list
  | tuple
  | set
  | frozenset
  | iterator
deriving Repr, DecidableEq

/-- An example value. -/
inductive Value where
  | atom (a : Atom)
  | sequence (kind : SequenceKind) (items : List Value)
  | mapping (entries : List (Value × Value))
deriving Repr

instance : Inhabited Value := ⟨.atom .none⟩

/-- The kind of an atom; types known by name are a kind each. -/
inductive AtomKind where
  | none
  | bool
  | int
  | float
  | str
  | bytes
  | named (typeName : String)
deriving Repr, DecidableEq

/-- The kind of a value. -/
inductive ValueKind where
  | atom (kind : AtomKind)
  | sequence (kind : SequenceKind)
  | mapping
deriving Repr, DecidableEq

namespace Atom

def kind : Atom → AtomKind
  | none => .none
  | bool _ => .bool
  | int _ => .int
  | float _ => .float
  | str _ => .str
  | bytes _ => .bytes
  | named typeName => .named typeName

/-- Equality of keys: floats are compared as numbers. -/
def same : Atom → Atom → Bool
  | float x, float y => x.sameNumber y
  | a, b => a = b

/-- The text of an atom that is a key. -/
def keyText : Atom → String
  | none => "None"
  | bool true => "True"
  | bool false => "False"
  | int i => toString i
  | float x => x.text
  | str s => s
  | bytes b => Utf8.decodeLossy b
  | named typeName => typeName

end Atom

namespace AtomKind

/-- The name of the run-time type. -/
def typeName : AtomKind → String
  | none => "None"
  | bool => "bool"
  | int => "int"
  | float => "float"
  | str => "str"
  | bytes => "bytes"
  | named name => name

end AtomKind

namespace SequenceKind

/-- The name of the run-time type. -/
def typeName : SequenceKind → String
  | list => "list"
  | tuple => "tuple"
  | set => "set"
  | frozenset => "frozenset"
  | iterator => "iterator"

end SequenceKind

namespace ValueKind

/-- The name of the run-time type. -/
def typeName : ValueKind → String
  | atom kind => kind.typeName
  | sequence kind => kind.typeName
  | mapping => "dict"

end ValueKind

namespace Value

abbrev int (i : Int) : Value := .atom (.int i)

abbrev str (s : String) : Value := .atom (.str s)

def kind : Value → ValueKind
  | atom a => .atom a.kind
  | sequence kind _ => .sequence kind
  | mapping _ => .mapping

/-- The name of the run-time type. -/
def typeName (v : Value) : String := v.kind.typeName

/-- The text of a value that is one. -/
def text? : Value → Option String
  | atom (.str s) => some s
  | _ => none

mutual

/-- The text of a value that is a key: that of its items or keys joined by `_`, if it
    is no atom. -/
def keyText : Value → String
  | atom a => a.keyText
  | sequence _ items => "_".intercalate (itemTexts items)
  | mapping entries => "_".intercalate (entryTexts entries)

def itemTexts : List Value → List String
  | [] => []
  | v :: rest => keyText v :: itemTexts rest

def entryTexts : List (Value × Value) → List String
  | [] => []
  | (k, _) :: rest => keyText k :: entryTexts rest

end

mutual

/-- Equality of keys. -/
def same : Value → Value → Bool
  | atom a, atom b => a.same b
  | sequence j vs, sequence k ws => j = k && sameItems vs ws
  | mapping es, mapping fs => sameEntries es fs
  | _, _ => false

def sameItems : List Value → List Value → Bool
  | [], [] => true
  | v :: vs, w :: ws => same v w && sameItems vs ws
  | _, _ => false

def sameEntries : List (Value × Value) → List (Value × Value) → Bool
  | [], [] => true
  | (j, v) :: es, (k, w) :: fs => same j k && same v w && sameEntries es fs
  | _, _ => false

end

/-- An entry set in a list of entries: a key that is there keeps its place and
    itself and gets the new value, a new one comes last. -/
def setEntry {α : Type} (entries : List (Value × α)) (key : Value) (value : α) :
    List (Value × α) :=
  match entries with
  | [] => [(key, value)]
  | (k, v) :: rest =>
    if k.same key then (k, value) :: rest else (k, v) :: setEntry rest key value

/-- The value that a list of entries has under a key. -/
def entry? {α : Type} (entries : List (Value × α)) (key : Value) : Option α :=
  (entries.find? fun e => e.1.same key).map (·.2)

/-- The mapping of a list of entries in which keys may repeat. -/
def ofEntries (entries : List (Value × Value)) : Value :=
  .mapping (entries.foldl (fun es e => setEntry es e.1 e.2) [])

/-- The iterator of at most `limit` items of a sequence. -/
def sample (items : List Value) (limit : Nat) : Value :=
  .sequence .iterator (items.take limit)

/-- The items of a list of items in which they may repeat, each at its first place. -/
def distinct (items : List Value) : List Value :=
  items.foldl (fun kept v => if kept.any (·.same v) then kept else kept ++ [v]) []

end Value

end TypeSketch
