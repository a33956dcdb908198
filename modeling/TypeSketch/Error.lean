import TypeSketch.Json.Typed

/-!
# Errors of Inference

Why a configuration is refused, a value has no type tree, or a tree cannot be
declared.

## Main definitions

* `SettingFault`, `InferenceError`: The causes.
* `InferenceError.message`: Their wording.
-/

namespace TypeSketch

/-- Why the value of a setting is refused. -/
inductive SettingFault where
  | notAmong (allowed : List String) (given : String)
  | belowZero
  | notAboveZero
  | aboveHundred
  | unreadable (fault : Json.TypedFault)
deriving Repr, DecidableEq

/-- The wording of a refusal. -/
def SettingFault.message : SettingFault → String
  | notAmong allowed given =>
    "expected any of (" ++ ", ".intercalate allowed ++ ") but got `" ++ given ++ "`"
  | belowZero => "must be greater or equal than 0"
  | notAboveZero => "must be greater than 0"
  | aboveHundred => "must be less or equal than 100"
  | unreadable fault => fault.message

/-- Why a value has no declarations. -/
inductive InferenceError where
  | unsupportedType (typeName : String)
  | invalidConfig (setting : String) (fault : SettingFault)
  | invalidIdentifier (text : String)
  | nameConflict (name : String)
deriving Repr, DecidableEq

/-- The wording of an error. -/
def InferenceError.message : InferenceError → String
  | unsupportedType typeName =>
    "no node kind is registered for values of type `" ++ typeName ++ "`"
  | invalidConfig setting fault => "invalid value for `" ++ setting ++ "`: " ++ fault.message
  | invalidIdentifier text => "`" ++ text ++ "` cannot be turned into a valid type name"
  | nameConflict name =>
    "alias `" ++ name ++ "` would be declared twice with different shapes"

end TypeSketch
