import TypeSketch.Tree.Basic

/-!
# Registries

Which kind of node the values of each kind become. A kind is registered as a scalar
type or with the rule of a container. A rule knows the values it applies to, so a
kind that is registered with the rule of another has no node.

## Main definitions

* `ContainerRule`: The rules of containers.
* `ContainerRule.elementKind?`: The sequences that a rule applies to.
* `Specialization`, `Registry`: Registrations.
* `Specialization.debugText`: What a diagnostic shows of one.
* `Registry.standard`: The registrations of the built-in types.
-/

namespace TypeSketch

/-- A rule by which a container becomes a node. The last one makes a tuple of any
    sequence. -/
inductive ContainerRule where
  | mapping
  | list
  | set
  | iterator
  | tuple
  | positional
deriving Repr, DecidableEq

/-- What a sequence is spelled with under a rule, if the rule applies to it. -/
def ContainerRule.elementKind? (rule : ContainerRule) (size : TupleSize) (kind : SequenceKind) :
    Option ElementKind :=
  match rule, kind with
  | list, .list => some .list
  | set, .set => some (.set false)
  | set, .frozenset => some (.set true)
  | iterator, .iterator => some .iterator
  | tuple, .tuple => some (.tuple size)
  | positional, _ => some (.tuple size)
  | _, _ => none

/-- What a kind of values is registered as. -/
inductive Specialization where
  | scalar (type : ScalarType)
  | container (rule : ContainerRule)
deriving Repr, DecidableEq

/-- A specialization as a diagnostic shows it. The rule of a container has no text. -/
def Specialization.debugText : Specialization → String
  | container _ => "Container(..)"
  | scalar type =>
    let symbol :=
      match type.symbol with
      | some symbol => "Some(" ++ Text.diagnostic symbol ++ ")"
      | none => "None"
    "Scalar \x7b rendered: " ++ Text.diagnostic type.rendered ++ ", import: " ++ symbol ++ " \x7d"

/-- Registrations by kind. -/
structure Registry where
  entries : List (ValueKind × Specialization) := []
deriving Repr, DecidableEq

namespace Registry

def empty : Registry := ⟨[]⟩

/-- What a kind is registered as. -/
def get? (r : Registry) (kind : ValueKind) : Option Specialization :=
  r.entries.lookup kind

/-- The registry without a kind. -/
def unregister (r : Registry) (kind : ValueKind) : Registry :=
  ⟨r.entries.filter (·.1 ≠ kind)⟩

/-- The registry with a kind registered anew. -/
def register (r : Registry) (kind : ValueKind) (specialization : Specialization) : Registry :=
  ⟨(kind, specialization) :: (r.unregister kind).entries⟩

/-- The registry with a type that only its name is known of. -/
def registerNamed (r : Registry) (typeName : String) (type : ScalarType) : Registry :=
  r.register (.atom (.named typeName)) (.scalar type)

/-- The registry with a kind registered as another is, if that one is. -/
def copy (r : Registry) (kind source : ValueKind) : Registry :=
  match r.get? source with
  | some specialization => r.register kind specialization
  | none => r

/-- The registrations of the built-in types: each atom is spelled as its type is
    called, and each container has its own rule. -/
def standard : Registry where
  entries :=
    (([.none, .bool, .int, .float, .str, .bytes] : List AtomKind).map fun kind =>
      (.atom kind, .scalar ⟨kind.typeName, none⟩)) ++
    [(.mapping, .container .mapping), (.sequence .list, .container .list),
     (.sequence .set, .container .set), (.sequence .frozenset, .container .set),
     (.sequence .iterator, .container .iterator), (.sequence .tuple, .container .tuple)]

instance : Inhabited Registry := ⟨standard⟩

end Registry

end TypeSketch
