import TypeSketch.Json.Quoted
import TypeSketch.Strategies.Basic

/-!
# Strategies as JSON

The form in which strategies are written down: an object with one member for each
choice. A reader takes the members in any order and lets every one be absent.

## Main definitions

* `Settings.json`: Settings as an object.
* `Settings.decoder`: Reading settings.
* `Strategies.parse`: Reading strategies.
-/

namespace TypeSketch

namespace Settings

/-- The settings as an object. -/
def json (s : Settings) : String :=
  "\x7b\"list_strategy\":" ++ Json.quote s.listStyle.text ++
  ",\"tuple_size_strategy\":" ++ Json.quote s.tupleSize.text ++
  ",\"dict_strategy\":" ++ Json.quote s.dictStyle.text ++
  ",\"min_height_to_define_type_alias\":" ++ toString s.aliasHeight ++
  ",\"key_used_as_doc\":" ++ Json.quote s.docKey ++
  ",\"merge_different_typed_dicts_if_similarity_above\":" ++ toString s.similarity ++
  ",\"typed_dict_read_only_values\":" ++ (if s.readOnly then "true" else "false") ++ "\x7d"

/-- The bounds of the numbers in settings. -/
def minInteger : Int := -0x8000000000000000

def maxInteger : Int := 0x7FFFFFFFFFFFFFFF

/-- The format of settings. -/
def format : Json.RecordFormat Settings where
  name := "StrategiesBuilder"
  fields := [
    ⟨"list_strategy", fun s cs =>
      (Json.choice ListStyle.variants cs).map fun (x, rest) => ({ s with listStyle := x }, rest)⟩,
    ⟨"tuple_size_strategy", fun s cs =>
      (Json.choice TupleSize.variants cs).map fun (x, rest) => ({ s with tupleSize := x }, rest)⟩,
    ⟨"dict_strategy", fun s cs =>
      (Json.choice DictStyle.variants cs).map fun (x, rest) => ({ s with dictStyle := x }, rest)⟩,
    ⟨"min_height_to_define_type_alias", fun s cs =>
      (Json.integer minInteger maxInteger "i64" cs).map fun (x, rest) =>
        ({ s with aliasHeight := x }, rest)⟩,
    ⟨"key_used_as_doc", fun s cs =>
      (Json.string "a string" cs).map fun (x, rest) => ({ s with docKey := x }, rest)⟩,
    ⟨"merge_different_typed_dicts_if_similarity_above", fun s cs =>
      (Json.integer minInteger maxInteger "i64" cs).map fun (x, rest) =>
        ({ s with similarity := x }, rest)⟩,
    ⟨"typed_dict_read_only_values", fun s cs =>
      (Json.boolean cs).map fun (x, rest) => ({ s with readOnly := x }, rest)⟩]
  optional := true
  closed := true

/-- Reads settings. Those that are absent have their usual values. -/
def decoder : Json.Decoder Settings := format.read {}

end Settings

/-- The strategies that a text writes. A failure is one of the setting it was found
    in. -/
def Strategies.parse (s : String) : Except InferenceError Strategies :=
  match Json.decode Settings.decoder s with
  | .ok settings => settings.validate
  | .error e => .error (.invalidConfig (Json.pathText e.path) (.unreadable e.fault))

end TypeSketch
