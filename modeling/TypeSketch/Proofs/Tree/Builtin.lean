import TypeSketch.Proofs.Names.Suffixes
import TypeSketch.Proofs.Tree.Coherence

/-!
# Built-in Words

The words in trees of examples without instances of types that only their names are known
of. By the standard registrations a scalar type is called like one of the built-in atoms,
and the type of a key like one of the built-in types. No operation on trees makes up a
word, so the words of a tree are among these few.

None of them is the name of a declaration below a root. Such a name has a suffix that
starts with another character than a small letter, and the words have small letters only
behind their first one.

## Main definitions

* `Naming.scalarNames`, `Naming.keyTypeNames`, `Naming.words`: The words.
* `TypeTree.IsBuiltin`: Trees with these words only.

## Theorems

* `Naming.Extends.not_mem_words`: Names with a suffix are no words.
* `TypeTree.IsBuiltin.rename`, `TypeTree.IsMerge.isBuiltin`, `TypeTree.isBuiltin_arrange`: What
  keeps words built-in.
* `Inference.isBuiltin_of_infer`: Trees of examples without opaque parts.
-/

namespace TypeSketch

namespace Naming

/-- How the built-in atoms are called. -/
def scalarNames : List String := ["None", "bool", "int", "float", "str", "bytes"]

/-- How the types of keys are called. -/
def keyTypeNames : List String :=
  scalarNames ++ ["list", "tuple", "set", "frozenset", "iterator", "dict"]

/-- What types are called that have no declaration, nothing being known of the last one. -/
def words : List String := keyTypeNames ++ ["Any"]

/-- A name with a suffix is no word. -/
theorem Extends.not_mem_words {parent name : String} (h : Extends parent name) (hne : parent ≠ "") :
    name ∉ words :=
  h.not_mem hne (by decide)

end Naming

namespace TypeTree

open Naming

/-- All words in the tree are built-in. -/
inductive IsBuiltin : TypeTree → Prop
  | scalar {name : String} {v : Value} {type : ScalarType} (known : type.rendered ∈ scalarNames) :
    IsBuiltin (.scalar name v type)
  | mapping {name : String} {v : Value} {form : MappingForm} {height : Nat} {shape : Shape}
    {fields : List (Value × TypeTree)} (children : ∀ f ∈ fields, IsBuiltin f.2)
    (keys_known : form = .generic → ∀ f ∈ fields, f.1.typeName ∈ keyTypeNames) :
    IsBuiltin (.mapping name v form height shape fields)
  | sequence {name : String} {v : Value} {kind : ElementKind} {height : Nat} {shape : Shape}
    {elements : List TypeTree} (children : ∀ e ∈ elements, IsBuiltin e) :
    IsBuiltin (.sequence name v kind height shape elements)

theorem IsBuiltin.child {t c : TypeTree} (hc : c ∈ t.children) (h : IsBuiltin t) : IsBuiltin c := by
  cases h with
  | scalar known => exact absurd hc List.not_mem_nil
  | mapping children _ =>
    rcases List.mem_map.mp hc with ⟨f, hf, rfl⟩
    exact children f hf
  | sequence children => exact children c hc

theorem IsBuiltin.of_followRename {oldName newName : String} {c : TypeTree} (h : IsBuiltin c)
    (hrename : ∀ name, IsBuiltin (c.rename name)) : IsBuiltin (followRename oldName newName c) := by
  rcases followRename_cases oldName newName c with heq | ⟨suffix, _, heq⟩
  · rw [heq]
    exact h
  · rw [heq]
    exact hrename _

theorem IsBuiltin.rename {t : TypeTree} (h : IsBuiltin t) (newName : String) :
    IsBuiltin (t.rename newName) := by
  induction h generalizing newName with
  | scalar known => exact IsBuiltin.scalar known
  | mapping hchildren hkeys ih =>
    rw [TypeTree.rename, renameFields_eq_map]
    refine IsBuiltin.mapping (List.forall_mem_map.mpr fun f hf => ?_)
      fun hform => List.forall_mem_map.mpr fun f hf => hkeys hform f hf
    exact (hchildren f hf).of_followRename fun name => ih f hf name
  | sequence hchildren ih =>
    rw [TypeTree.rename, renameElements_eq_map]
    refine IsBuiltin.sequence (List.forall_mem_map.mpr fun e he => ?_)
    exact (hchildren e he).of_followRename fun name => ih e he name

/-- A merge of records with built-in words has built-in words. -/
theorem IsMerge.isBuiltin {similarity : Nat} {a b m : TypeTree} (h : IsMerge similarity a b m)
    (ha : IsBuiltin a) (hb : IsBuiltin b) : IsBuiltin m := by
  cases h with | @intro name theirName _ _ _ _ _ _ _ _ left right _ =>
  rcases ha with _ | ⟨hchildren, _⟩
  rcases hb with _ | ⟨hchildren', _⟩
  have hmerged : ∀ f ∈ mergeFields name theirName left right, IsBuiltin f.2 := by
    refine forall_mem_mergeFields hchildren fun g hg => ?_
    rw [adopt_eq]
    split
    · exact hchildren' g hg
    · exact (hchildren' g hg).of_followRename fun name => (hchildren' g hg).rename name
  exact IsBuiltin.mapping hmerged fun hform => MappingForm.noConfusion hform

theorem isBuiltin_arrange {s : Strategies} {kind : ElementKind} {trees : List TypeTree}
    (h : ∀ t ∈ trees, IsBuiltin t) : ∀ u ∈ arrange s kind trees, IsBuiltin u :=
  forall_mem_arrange (fun _ _ _ ha hb hm => hm.isBuiltin ha hb) (fun _ _ ht _ => ht.rename _) h

end TypeTree

namespace Value

open Naming

/-- The types of keys without opaque parts are built-in. -/
theorem IsOpaqueFree.typeName_mem {v : Value} (h : v.IsOpaqueFree) : v.typeName ∈ keyTypeNames := by
  cases h with
  | @atom a builtin =>
    change a.kind.typeName ∈ keyTypeNames
    cases a with
    | named typeName => exact absurd rfl (builtin typeName)
    | _ => simp [Atom.kind, AtomKind.typeName, keyTypeNames, scalarNames]
  | @sequence kind items _ =>
    change kind.typeName ∈ keyTypeNames
    cases kind <;> decide
  | mapping _ _ =>
    change "dict" ∈ keyTypeNames
    decide

end Value

namespace Inference

open Naming TypeTree

/-- What the standard registrations call a scalar type. -/
theorem rendered_mem_of_standard {kind : ValueKind} {type : ScalarType}
    (h : Registry.standard.get? kind = some (.scalar type)) : type.rendered ∈ scalarNames := by
  rcases Registry.scalar_of_standard h with ⟨k, hk, _, rfl⟩
  have hall : ∀ k ∈ Registry.builtinAtoms, k.typeName ∈ scalarNames := by decide
  exact hall k hk

/-- Examples without opaque parts have trees with built-in words. -/
theorem isBuiltin_of_infer {s : Strategies} {name : String} {v : Value} {t : TypeTree}
    (hfree : v.IsOpaqueFree) (h : infer ⟨s, .standard⟩ name v = .ok t) : IsBuiltin t := by
  -- The values of a free value are free, so the induction carries it along.
  refine node_induct (P := fun _ v t => v.IsOpaqueFree → IsBuiltin t) ?_ ?_ ?_ v name t
    (infer_eq_ok_iff.mp h).2 hfree
  · exact fun name v type hget _ => IsBuiltin.scalar (rendered_mem_of_standard hget)
  · intro name kind items rule elementKind trees _ _ _ hbuiltin hfree
    rcases hfree with _ | hitems
    refine IsBuiltin.sequence (isBuiltin_arrange fun t ht => ?_)
    rcases exists_mem_left_of_forall₂ hbuiltin ht with ⟨item, hitem, htree⟩
    exact htree (hitems item hitem)
  · intro name entries children _ hfields hbuiltin hfree
    rcases hfree with _ | _ | ⟨hkeys, hvalues⟩
    refine IsBuiltin.mapping (fun f hf => ?_) fun _ f hf => ?_
    · rcases (mem_distinctFields hf).2 with ⟨c, hc, heq⟩
      rcases exists_mem_left_of_forall₂ hbuiltin hc with ⟨e, he, htree⟩
      rw [← heq]
      exact htree (hvalues e.1 (List.fst_mem_of_mem_zipIdx he))
    -- The key of a field is the key of an entry.
    · rcases (mem_distinctFields hf).1 with ⟨c, hc, heq⟩
      have hkey : c.1 ∈ entries.map (·.1) := by
        rw [← keys_of_isField hfields]
        exact List.mem_map_of_mem hc
      rcases List.mem_map.mp hkey with ⟨e, he, hentry⟩
      rw [← heq, ← hentry]
      exact (hkeys e he).typeName_mem

end Inference

end TypeSketch
