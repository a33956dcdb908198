import TypeSketch.Tree.Registry
import TypeSketch.Tree.Siblings

/-!
# Inference

The type tree of an example value. The registry says which kind of node a value
becomes, and a container's children are inferred before the container is.

A caller may register a constructor of its own for a kind of values. What it makes of a
value is up to it: it can ask for the nodes of parts, and it need not call its node what it
is asked to. `Builder` has such constructors beside the registry, and `Inference` is what
goes by the registry alone.

A child that gets a declaration needs a name that can be one. This is checked when
the child is complete, so an error inside it comes first. It is the name that has been asked
for that is checked.

## Main definitions

* `Inference`: The strategies and the registry of a run.
* `Constructor`, `Builder`: Constructors of a caller's own.
* `Builder.node`: The tree of a value under a name.
* `Builder.child`: The tree of a part of a value.
* `Builder.infer`: The tree of a whole value.
* `Inference.node`, `Inference.child`, `Inference.infer`: The same by the registry alone.
-/

namespace TypeSketch

/-- What inference goes by. -/
structure Inference where
  strategies : Strategies := {}
  registry : Registry := .standard

/-- The node that a constructor makes of a value under a name. A constructor is given the builder
    that it has been registered with, too. This is what is left of it when the builder is fixed. -/
abbrev Constructor := String → Value → Except InferenceError TypeTree

/-- What inference goes by where a caller has constructors of its own. A kind that has one is
    made by it, whatever the registry says of the kind. -/
structure Builder extends Inference where
  supplied : ValueKind → Option Constructor := fun _ => none

namespace Inference

/-- Whether all keys are texts, as the fields of a record have to be. -/
def hasTextKeys (entries : List (Value × Value)) : Bool :=
  entries.all fun (key, _) => key.text?.isSome

/-- The documentation in a record: the text under the documentation's key. -/
def doc? (docKey : String) (entries : List (Value × Value)) : Option String :=
  if docKey.isEmpty then none
  else (entries.find? fun (key, _) => key.text? = some docKey).bind (·.2.text?)

/-- How a mapping with these entries is declared. -/
def mappingForm (s : Strategies) (entries : List (Value × Value)) : MappingForm :=
  if s.dictStyle = .typedDict ∧ hasTextKeys entries then
    .record {
      functional := entries.any fun (key, _) => !(key.text?.any Naming.isIdentifier)
      doc := doc? s.docKey entries }
  else .generic

/-- The fields of a list of children in which keys may repeat. -/
def distinctFields (children : List (Value × TypeTree)) : List (Value × TypeTree) :=
  children.foldl (fun fields (key, child) => Value.setEntry fields key child) []

/-- A child that was asked for under this name, unless it needs a better one. -/
def checkName (s : Strategies) (key : ChildKey) (name : String) (t : TypeTree) :
    Except InferenceError TypeTree :=
  if !Naming.isIdentifier name && t.isAliased s then
    .error (.invalidIdentifier key.describe)
  else .ok t

/-- The builder without constructors of a caller's own. -/
abbrev builder (run : Inference) : Builder where
  toInference := run

end Inference

namespace Builder

open Inference

mutual

/-- The tree of a value under a name. -/
def node (b : Builder) (name : String) (v : Value) : Except InferenceError TypeTree :=
  match b.supplied v.kind with
  | some construct => construct name v
  | none =>
    match b.registry.get? v.kind with
    | none => .error (.unsupportedType v.typeName)
    | some (.scalar type) => .ok (.scalar name v type)
    | some (.container rule) =>
      match v with
      | .atom a => .error (.unsupportedType a.kind.typeName)
      | .sequence kind items =>
        match rule.elementKind? b.strategies.tupleSize kind with
        | none => .error (.unsupportedType kind.typeName)
        | some elementKind =>
          match elementNodes b name items with
          | .error e => .error e
          | .ok trees =>
            .ok (.ofElements name (.sequence kind items) elementKind
              (TypeTree.arrange b.strategies elementKind trees))
      | .mapping entries =>
        if rule = .mapping then
          match fieldNodes b name 0 entries with
          | .error e => .error e
          | .ok children =>
            .ok (.ofFields name (.mapping entries) (mappingForm b.strategies entries)
              (distinctFields children))
        else .error (.unsupportedType ValueKind.mapping.typeName)

/-- The trees of the items of a sequence. -/
def elementNodes (b : Builder) (parent : String) :
    List Value → Except InferenceError (List TypeTree)
  | [] => .ok []
  | item :: rest =>
    let key := ChildKey.element item
    let name := Naming.childName parent key
    match (node b name item).bind (checkName b.strategies key name) with
    | .error e => .error e
    | .ok t =>
      match elementNodes b parent rest with
      | .error e => .error e
      | .ok trees => .ok (t :: trees)

/-- The trees of the entries of a mapping, from a position on. -/
def fieldNodes (b : Builder) (parent : String) (position : Nat) :
    List (Value × Value) → Except InferenceError (List (Value × TypeTree))
  | [] => .ok []
  | (key, item) :: rest =>
    let childKey := ChildKey.field key position
    let name := Naming.childName parent childKey
    match (node b name item).bind (checkName b.strategies childKey name) with
    | .error e => .error e
    | .ok t =>
      match fieldNodes b parent (position + 1) rest with
      | .error e => .error e
      | .ok children => .ok ((key, t) :: children)

end

/-- The tree of a part of a value. -/
def child (b : Builder) (parent : String) (key : ChildKey) (v : Value) :
    Except InferenceError TypeTree :=
  (b.node (Naming.childName parent key) v).bind
    (checkName b.strategies key (Naming.childName parent key))

/-- The tree of a value that is declared under a name. -/
def infer (b : Builder) (name : String) (v : Value) : Except InferenceError TypeTree :=
  if Naming.isIdentifier name then b.node name v else .error (.invalidIdentifier name)

end Builder

namespace Inference

/-- The tree of a value under a name. -/
def node (run : Inference) : String → Value → Except InferenceError TypeTree :=
  run.builder.node

/-- The trees of the items of a sequence. -/
def elementNodes (run : Inference) :
    String → List Value → Except InferenceError (List TypeTree) :=
  run.builder.elementNodes

/-- The trees of the entries of a mapping, from a position on. -/
def fieldNodes (run : Inference) :
    String → Nat → List (Value × Value) → Except InferenceError (List (Value × TypeTree)) :=
  run.builder.fieldNodes

/-- The tree of a part of a value. -/
def child (run : Inference) : String → ChildKey → Value → Except InferenceError TypeTree :=
  run.builder.child

/-- The tree of a value that is declared under a name. -/
def infer (run : Inference) : String → Value → Except InferenceError TypeTree :=
  run.builder.infer

end Inference

end TypeSketch
