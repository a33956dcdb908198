import TypeSketch.Proofs.Render.Permuted
import TypeSketch.Proofs.Tree.Parts

/-!
# One Name for One Shape

Elements of one sequence that have one shape get no two declarations. Where the order of the
elements does not matter, only one element of each digest is left. In a tuple of fixed size
every position keeps its element, but elements of one shape are called alike: they were before
they were numbered, and the number is the place of the digest among those of the name.

This holds of every sequence in an inferred tree. Whatever happens to a sequence after it has
been arranged is a renaming of all its elements by one rule, and that keeps equal names equal.

## Main definitions

* `TypeTree.Distinguishes`: Elements that are told apart by their shapes.
* `TypeTree.IsDistinguished`: All sequences in a tree have such elements.

## Theorems

* `TypeTree.distinguishes_arrange`: Arranged elements.
* `TypeTree.isNodewise_distinguishes`: What keeps them so.
* `Inference.isDistinguished_of_infer`: Inferred trees.
-/

namespace TypeSketch

namespace TypeTree

variable {s : Strategies} {kind : ElementKind} {elements trees : List TypeTree}

/-- Children of one name follow their parent to one name. -/
theorem name_followRename_congr {oldName newName : String} {a b : TypeTree} (h : a.name = b.name) :
    (followRename oldName newName a).name = (followRename oldName newName b).name := by
  unfold followRename
  rw [h]
  split
  · rw [name_rename, name_rename]
  · exact h

/-- Elements of one shape that get a declaration have one name, and unless every position
    keeps its element there is one element of each digest. -/
structure Distinguishes (s : Strategies) (kind : ElementKind) (elements : List TypeTree) : Prop where
  nodup : kind ≠ .tuple .fixed → (elements.map digest).Nodup
  name_eq : ∀ a ∈ elements, ∀ b ∈ elements, a.isAliased s = true → b.isAliased s = true →
    a.shape = b.shape → a.name = b.name

/-- The elements of all sequences in the tree are told apart by their shapes. -/
def IsDistinguished (s : Strategies) (t : TypeTree) : Prop :=
  ∀ name v kind height shape elements, sequence name v kind height shape elements ∈ t.nodes →
    Distinguishes s kind elements

section Arranging

theorem Distinguishes.map_followRename (h : Distinguishes s kind elements) (oldName newName : String) :
    Distinguishes s kind (elements.map (followRename oldName newName)) where
  nodup hkind := by
    have hshapes : (elements.map (followRename oldName newName)).map shape = elements.map shape := by
      rw [List.map_map, show shape ∘ followRename oldName newName = shape from
        funext (shape_followRename oldName newName)]
    rw [map_digest_of_map_shape hshapes]
    exact h.nodup hkind
  name_eq := by
    refine List.forall_mem_map.mpr fun a ha => List.forall_mem_map.mpr fun b hb => ?_
    rw [isAliased_followRename, isAliased_followRename, shape_followRename, shape_followRename]
    exact fun haliased hbliased hshape =>
      name_followRename_congr (h.name_eq a ha b hb haliased hbliased hshape)

section Called

variable (h : ∀ a ∈ trees, ∀ b ∈ trees, a.isAliased s = true → b.isAliased s = true →
  a.shape = b.shape → a.name = b.name)

include h

/-- Numbering keeps equal names of equal shapes equal. -/
theorem name_eq_of_mem_disambiguate {a b : TypeTree} (ha : a ∈ disambiguate s trees)
    (hb : b ∈ disambiguate s trees) (haliased : a.isAliased s = true)
    (hbliased : b.isAliased s = true) (hshape : a.shape = b.shape) : a.name = b.name := by
  rcases exists_ledger s trees with ⟨table, _, hnumbered⟩
  rcases exists_mem_left_of_forall₂ hnumbered ha with ⟨x, hx, hxa⟩
  rcases exists_mem_left_of_forall₂ hnumbered hb with ⟨y, hy, hyb⟩
  -- An element that gets a declaration has been numbered by the place of its digest.
  have hplaced : ∀ {x u : TypeTree}, IsNumberedBy s table x u → u.isAliased s = true →
      x.isAliased s = true ∧ x.shape = u.shape ∧
        u.name = ordinalName x.name ((table x.name).idxOf x.digest) := by
    intro x u hxu haliased
    by_cases hx : x.isAliased s = true
    · rw [IsNumberedBy, if_pos hx] at hxu
      rw [hxu, shape_withOrdinal, name_withOrdinal]
      exact ⟨hx, rfl, rfl⟩
    · rw [IsNumberedBy, if_neg hx] at hxu
      exact absurd (hxu ▸ haliased) hx
  rcases hplaced hxa haliased with ⟨hxaliased, hxshape, hxname⟩
  rcases hplaced hyb hbliased with ⟨hyaliased, hyshape, hyname⟩
  have hxy : x.shape = y.shape := by rw [hxshape, hshape, hyshape]
  rw [hxname, hyname, h x hx y hy hxaliased hyaliased hxy, digest, digest, hxy]

/-- Arranged elements are told apart by their shapes, if elements of one shape are called
    alike at first. -/
theorem distinguishes_arrange : Distinguishes s kind (arrange s kind trees) := by
  by_cases hfixed : kind = .tuple .fixed
  · -- Nothing is dropped or merged here, so elements of one shape have only been numbered.
    subst hfixed
    exact ⟨fun hkind => absurd rfl hkind, fun a ha b hb haliased hbliased =>
      name_eq_of_mem_disambiguate h ha hb haliased hbliased⟩
  · -- Merging drops repeated digests at its end, and numbering keeps the digests.
    have hnodup : ((arrange s kind trees).map digest).Nodup := by
      rw [arrange_of_ne_fixed hfixed, map_digest_disambiguate]
      exact nodup_dropRepeated _
    exact ⟨fun _ => hnodup, fun a ha b hb _ _ hshape =>
      congrArg name (List.inj_on_of_nodup_map hnodup ha hb (congrArg Shape.digest hshape))⟩

end Called

end Arranging

/-- A renamed node is a sequence only if it has been one, of the same kind. -/
theorem isNodewise_distinguishes (s : Strategies) : IsNodewise fun u =>
    ∀ name v kind height shape elements, u = sequence name v kind height shape elements →
      Distinguishes s kind elements where
  rename t newName h name v kind height shape elements heq := by
    cases t with
    | scalar _ _ _ => contradiction
    | mapping _ _ _ _ _ _ => contradiction
    | sequence oldName v' kind' height' shape' before =>
      rw [TypeTree.rename, renameElements_eq_map] at heq
      cases heq
      exact (h oldName v kind height shape before rfl).map_followRename oldName _
  merge _ _ _ m hm _ _ name v kind height shape elements heq := by
    rw [heq] at hm
    cases hm

end TypeTree

namespace Inference

open TypeTree

variable {run : Inference} {types : List (String × ScalarType)}

/-- All sequences in an inferred tree tell their elements apart by their shapes. -/
theorem isDistinguished_of_infer (hregistry : run.registry = Registry.extended types)
    {name : String} {v : Value} {t : TypeTree} (h : run.infer name v = .ok t) :
    IsDistinguished run.strategies t := by
  intro n w kind height shape elements hmem
  refine forall_nodes_of_node (isNodewise_distinguishes run.strategies) ?_
    (infer_eq_ok_iff.mp h).2 _ hmem n w kind height shape elements rfl
  rintro parent part _ _ hnode _ _ _ _ _ _ rfl
  cases hnode with | @sequence _ items _ _ trees _ _ hchildren =>
  have hitems : ∀ x ∈ trees, run.IsItem parent items x :=
    fun x hx => exists_mem_left_of_forall₂ hchildren hx
  exact distinguishes_arrange fun x hx y hy =>
    (hitems x hx).name_eq_of_shape_eq hregistry (hitems y hy)

end Inference

end TypeSketch
