import TypeSketch.Error

/-!
# Strategies

How types are inferred and spelled. The strategies of a run are fixed: which names
containers get, whether tuples keep their size, from which height on a container is
an alias of its own, which key holds the documentation of a record, how similar two
records have to be to become one, and whether fields are read-only.

`Settings` holds the same choices before they are checked. The two numbers have
bounds, and `Settings.validate` is the way from settings to strategies.

## Main definitions

* `ListStyle`, `TupleSize`, `DictStyle`: The choices with a name each.
* `Strategies`, `Settings`: Checked and unchecked choices.
* `Settings.validate`: Settings within their bounds.
-/

namespace TypeSketch

/-- The container that a list is spelled with. -/
inductive ListStyle where
  | list
  | sequence
deriving Repr, DecidableEq

/-- Whether a tuple type fixes the number of its items. -/
inductive TupleSize where
  | fixed
  | anySize
deriving Repr, DecidableEq

/-- What a mapping is spelled with. -/
inductive DictStyle where
  | typedDict
  | mapping
  | dict
deriving Repr, DecidableEq

/-- A choice among names: the one that has this name. -/
def parseChoice {α : Type} (setting : String) (variants : List (String × α)) (s : String) :
    Except InferenceError α :=
  match variants.lookup s with
  | some a => .ok a
  | none => .error (.invalidConfig setting (.notAmong (variants.map (·.1)) s))

namespace ListStyle

def text : ListStyle → String
  | list => "list"
  | sequence => "Sequence"

def variants : List (String × ListStyle) := [list, sequence].map fun x => (x.text, x)

def parse : String → Except InferenceError ListStyle := parseChoice "list_strategy" variants

end ListStyle

namespace TupleSize

def text : TupleSize → String
  | fixed => "fixed"
  | anySize => "any size"

def variants : List (String × TupleSize) := [fixed, anySize].map fun x => (x.text, x)

def parse : String → Except InferenceError TupleSize :=
  parseChoice "tuple_size_strategy" variants

end TupleSize

namespace DictStyle

def text : DictStyle → String
  | typedDict => "TypedDict"
  | mapping => "Mapping"
  | dict => "dict"

def variants : List (String × DictStyle) := [typedDict, mapping, dict].map fun x => (x.text, x)

def parse : String → Except InferenceError DictStyle := parseChoice "dict_strategy" variants

end DictStyle

/-- The strategies of a run. A threshold of similarity is a percentage, and zero is
    none. The empty key is the documentation of no record. -/
structure Strategies where
  listStyle : ListStyle := .list
  tupleSize : TupleSize := .fixed
  dictStyle : DictStyle := .typedDict
  aliasHeight : Nat := 1
  docKey : String := ""
  similarity : Nat := 50
  readOnly : Bool := false
  similarity_pos : 0 < similarity := by decide
  similarity_le : similarity ≤ 100 := by decide
deriving Repr, DecidableEq

instance : Inhabited Strategies := ⟨{}⟩

/-- The choices before they are checked. -/
structure Settings where
  listStyle : ListStyle := .list
  tupleSize : TupleSize := .fixed
  dictStyle : DictStyle := .typedDict
  aliasHeight : Int := 1
  docKey : String := ""
  similarity : Int := 50
  readOnly : Bool := false
deriving Repr, DecidableEq

instance : Inhabited Settings := ⟨{}⟩

/-- The strategies as settings. -/
def Strategies.toSettings (s : Strategies) : Settings where
  listStyle := s.listStyle
  tupleSize := s.tupleSize
  dictStyle := s.dictStyle
  aliasHeight := s.aliasHeight
  docKey := s.docKey
  similarity := s.similarity
  readOnly := s.readOnly

/-- The settings within their bounds: a height from zero on, and a similarity from one
    to a hundred. -/
def Settings.validate (s : Settings) : Except InferenceError Strategies :=
  let similaritySetting := "merge_different_typed_dicts_if_similarity_above"
  if s.aliasHeight < 0 then
    .error (.invalidConfig "min_height_to_define_type_alias" .belowZero)
  else if low : s.similarity ≤ 0 then .error (.invalidConfig similaritySetting .notAboveZero)
  else if high : 100 < s.similarity then .error (.invalidConfig similaritySetting .aboveHundred)
  else
    .ok {
      listStyle := s.listStyle
      tupleSize := s.tupleSize
      dictStyle := s.dictStyle
      aliasHeight := s.aliasHeight.toNat
      docKey := s.docKey
      similarity := s.similarity.toNat
      readOnly := s.readOnly
      similarity_pos := by omega
      similarity_le := by omega }

end TypeSketch
