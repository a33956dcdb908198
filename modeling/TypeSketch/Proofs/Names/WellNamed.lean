import TypeSketch.Proofs.Names.Suffixes
import TypeSketch.Proofs.Tree.Inferred
import TypeSketch.Proofs.Tree.Siblings

/-!
# Names in Trees

In an inferred tree the name of a child is the name of its parent with a suffix, and
nodes with a declaration have plain names. Both survive what happens to siblings: a
record that takes in another one renames what it takes over, and an element that gets a
number is renamed with all below it. Renaming exchanges the name of a node at the start
of every name below it.

The name of a node without a declaration can be anything, so it is not obvious that the
names stay plain. But a node with a declaration has the names of all nodes above it at
the start of its own, so above it there is no name that is not plain.

## Main definitions

* `TypeTree.WellNamed`: Trees with such names.
* `TypeTree.HasAlias`: A node or one below it gets a declaration.

## Theorems

* `TypeTree.WellNamed.extends_of_mem_descendants`: Names grow on the way down.
* `TypeTree.WellNamed.rename`, `TypeTree.IsMerge.wellNamed`, `TypeTree.wellNamed_arrange`: What
  keeps trees well named.
* `Inference.wellNamed_of_infer`: Inferred trees are well named.
-/

namespace TypeSketch

namespace TypeTree

open Naming

/-- Names of children are names of their parents with a suffix, and the names of nodes
    that get a declaration are plain. -/
inductive WellNamed (s : Strategies) : TypeTree → Prop
  | scalar (name : String) (v : Value) (type : ScalarType) : WellNamed s (.scalar name v type)
  | mapping {name : String} {v : Value} {form : MappingForm} {height : Nat} {shape : Shape}
    {fields : List (Value × TypeTree)} (children : ∀ f ∈ fields, WellNamed s f.2)
    (extended : ∀ f ∈ fields, Extends name f.2.name)
    (plain : (mapping name v form height shape fields).isAliased s = true → IsPlain name) :
    WellNamed s (.mapping name v form height shape fields)
  | sequence {name : String} {v : Value} {kind : ElementKind} {height : Nat} {shape : Shape}
    {elements : List TypeTree} (children : ∀ e ∈ elements, WellNamed s e)
    (extended : ∀ e ∈ elements, Extends name e.name)
    (plain : (sequence name v kind height shape elements).isAliased s = true → IsPlain name) :
    WellNamed s (.sequence name v kind height shape elements)

/-- The node or one below it gets a declaration. -/
def HasAlias (s : Strategies) (t : TypeTree) : Prop := ∃ u ∈ t.nodes, u.isAliased s = true

variable {s : Strategies}

theorem HasAlias.of_child {t c : TypeTree} (hc : c ∈ t.children) (h : HasAlias s c) :
    HasAlias s t := by
  rcases h with ⟨u, hu, haliased⟩
  exact ⟨u, mem_nodes_of_child hc hu, haliased⟩

section Access

variable {t c u : TypeTree}

theorem WellNamed.child (hc : c ∈ t.children) (h : WellNamed s t) : WellNamed s c := by
  cases h with
  | scalar name v type => exact absurd hc List.not_mem_nil
  | mapping children _ _ =>
    rcases List.mem_map.mp hc with ⟨f, hf, rfl⟩
    exact children f hf
  | sequence children _ _ => exact children c hc

theorem WellNamed.extends_child (h : WellNamed s t) (hc : c ∈ t.children) :
    Extends t.name c.name := by
  cases h with
  | scalar name v type => exact absurd hc List.not_mem_nil
  | mapping _ extended _ =>
    rcases List.mem_map.mp hc with ⟨f, hf, rfl⟩
    exact extended f hf
  | sequence _ extended _ => exact extended c hc

theorem WellNamed.isPlain (h : WellNamed s t) (haliased : t.isAliased s = true) :
    IsPlain t.name := by
  cases h with
  | scalar name v type => exact absurd haliased Bool.false_ne_true
  | mapping _ _ plain => exact plain haliased
  | sequence _ _ plain => exact plain haliased

theorem WellNamed.of_mem_nodes (h : WellNamed s t) (hu : u ∈ t.nodes) : WellNamed s u :=
  forall_mem_nodes (fun _ _ hc ht => ht.child hc) h u hu

/-- The name of a node below another one extends the name of that one. -/
theorem WellNamed.extends_of_mem_descendants (h : WellNamed s t) (hu : u ∈ t.descendants) :
    Extends t.name u.name := by
  rcases mem_descendants.mp hu with ⟨c, hc, hu⟩
  refine (forall_mem_nodes (P := fun w => WellNamed s w ∧ Extends t.name w.name) ?_
    ⟨h.child hc, h.extends_child hc⟩ u hu).2
  intro w d hd hw
  exact ⟨hw.1.child hd, hw.2.trans (hw.1.extends_child hd)⟩

/-- Above a node with a declaration there are plain names only. -/
theorem WellNamed.isPlain_of_hasAlias (h : WellNamed s t) (halias : HasAlias s t) :
    IsPlain t.name := by
  rcases halias with ⟨u, hu, haliased⟩
  have hplain := (h.of_mem_nodes hu).isPlain haliased
  rcases mem_nodes.mp hu with rfl | hu
  · exact hplain
  · rcases h.extends_of_mem_descendants hu with ⟨suffix, _, hname⟩
    rw [hname, isPlain_append] at hplain
    exact hplain.1

end Access

section Renaming

theorem wellNamed_followRename {oldName newName : String} {c : TypeTree} (hc : WellNamed s c)
    (hextends : Extends oldName c.name)
    (hrename : ∀ name, (HasAlias s c → IsPlain name) → WellNamed s (c.rename name))
    (hplain : HasAlias s c → IsPlain newName) :
    WellNamed s (followRename oldName newName c) ∧
      Extends newName (followRename oldName newName c).name := by
  rcases hextends with ⟨suffix, hsuffix, hname⟩
  have hfollow : followRename oldName newName c = c.rename (newName ++ suffix) := by
    rw [followRename, dropStart?_eq_some_iff.mpr hname]
  rw [hfollow]
  refine ⟨hrename _ fun halias => ?_, suffix, hsuffix, name_rename _ c⟩
  -- The suffix is plain, as the old name was.
  have hold := hc.isPlain_of_hasAlias halias
  rw [hname, isPlain_append] at hold
  exact isPlain_append.mpr ⟨hplain halias, hold.2⟩

theorem WellNamed.rename {t : TypeTree} (h : WellNamed s t) {newName : String}
    (hplain : HasAlias s t → IsPlain newName) : WellNamed s (t.rename newName) := by
  induction h generalizing newName with
  | scalar name v type => exact WellNamed.scalar newName v type
  | @mapping name v form height shape fields hchildren hextended _ ih =>
    -- The children follow because their names extend the old one, and what extends a plain name by
    -- a suffix of theirs is plain.
    have hfollow : ∀ f ∈ fields, WellNamed s (followRename name newName f.2) ∧
        Extends newName (followRename name newName f.2).name := by
      intro f hf
      refine wellNamed_followRename (hchildren f hf) (hextended f hf) (fun _ h => ih f hf h) ?_
      exact fun halias => hplain (halias.of_child (List.mem_map_of_mem hf))
    rw [TypeTree.rename, renameFields_eq_map]
    refine WellNamed.mapping (List.forall_mem_map.mpr fun f hf => (hfollow f hf).1)
      (List.forall_mem_map.mpr fun f hf => (hfollow f hf).2) fun haliased => ?_
    exact hplain ⟨_, mem_nodes_self _, by cases form <;> exact haliased⟩
  | @sequence name v kind height shape elements hchildren hextended _ ih =>
    have hfollow : ∀ e ∈ elements, WellNamed s (followRename name newName e) ∧
        Extends newName (followRename name newName e).name := by
      intro e he
      refine wellNamed_followRename (hchildren e he) (hextended e he) (fun _ h => ih e he h) ?_
      exact fun halias => hplain (halias.of_child he)
    rw [TypeTree.rename, renameElements_eq_map]
    refine WellNamed.sequence (List.forall_mem_map.mpr fun e he => (hfollow e he).1)
      (List.forall_mem_map.mpr fun e he => (hfollow e he).2) fun haliased => ?_
    exact hplain ⟨_, mem_nodes_self _, haliased⟩

end Renaming

/-- A merge of well named records is well named. -/
theorem IsMerge.wellNamed {similarity : Nat} {a b m : TypeTree} (h : IsMerge similarity a b m)
    (ha : WellNamed s a) (hb : WellNamed s b) : WellNamed s m := by
  cases h with | @intro name theirName _ _ _ _ _ _ _ _ left right _ =>
  rcases ha with _ | ⟨hchildren, hextended, hplain⟩
  rcases hb with _ | ⟨hchildren', hextended', _⟩
  have hmerged : ∀ f ∈ mergeFields name theirName left right,
      WellNamed s f.2 ∧ Extends name f.2.name := by
    refine forall_mem_mergeFields (P := fun c => WellNamed s c ∧ Extends name c.name)
      (fun f hf => ⟨hchildren f hf, hextended f hf⟩) fun g hg => ?_
    -- A child of the second record gets the name of the first one for a prefix.
    rw [adopt_eq]
    split
    · next hsame =>
      rw [← hsame]
      exact ⟨hchildren' g hg, hextended' g hg⟩
    · exact wellNamed_followRename (hchildren' g hg) (hextended' g hg)
        (fun _ h => (hchildren' g hg).rename h) fun _ => hplain rfl
  exact WellNamed.mapping (fun f hf => (hmerged f hf).1) (fun f hf => (hmerged f hf).2) hplain

/-- The arranged elements of well named ones with a suffix are of that kind. -/
theorem wellNamed_arrange {kind : ElementKind} {trees : List TypeTree} {parent : String}
    (h : ∀ t ∈ trees, WellNamed s t ∧ Extends parent t.name) :
    ∀ u ∈ arrange s kind trees, WellNamed s u ∧ Extends parent u.name := by
  refine forall_mem_arrange ?_ ?_ h
  · intro a b m ha hb hm
    refine ⟨hm.wellNamed ha.1 hb.1, ?_⟩
    cases hm
    exact ha.2
  · intro t i ht haliased
    refine ⟨ht.1.rename fun _ => ?_, by rw [name_rename]; exact ht.2.append _⟩
    exact isPlain_append.mpr ⟨ht.1.isPlain haliased, isPlain_toString _⟩

end TypeTree

namespace Inference

open TypeTree Naming

/-- A child with a declaration has an identifier as its name, which is what the parent needs. -/
theorem wellNamed_of_child {run : Inference} {parent : String} {key : ChildKey} {item : Value}
    {c : TypeTree} (hc : run.child parent key item = .ok c)
    (hwell : (c.isAliased run.strategies = true → IsPlain (childName parent key)) →
      WellNamed run.strategies c) :
    WellNamed run.strategies c ∧ Extends parent c.name := by
  rcases child_eq_ok_iff.mp hc with ⟨hnode, hidentifier⟩
  refine ⟨hwell fun haliased => isPlain_of_isIdentifier (hidentifier haliased), ?_⟩
  rw [name_of_node hnode]
  exact extends_childName parent key

theorem wellNamed_of_node {run : Inference} {name : String} {v : Value} {t : TypeTree}
    (h : run.node name v = .ok t) (hplain : t.isAliased run.strategies = true → IsPlain name) :
    WellNamed run.strategies t := by
  refine node_induct (P := fun name _ t =>
    (t.isAliased run.strategies = true → IsPlain name) → WellNamed run.strategies t)
    ?_ ?_ ?_ v name t h hplain
  · exact fun name v type _ _ => WellNamed.scalar name v type
  · intro name kind items rule elementKind trees _ _ htrees hwell hplain
    -- Each tree has its item beside it, so that its name is known to go on from the parent's.
    have harranged : ∀ u ∈ arrange run.strategies elementKind trees,
        WellNamed run.strategies u ∧ Extends name u.name := by
      refine wellNamed_arrange fun t ht => ?_
      have hboth := htrees.mp (fun _ _ h h' => And.intro h h') hwell
      rcases exists_mem_left_of_forall₂ hboth ht with ⟨item, _, hc, hw⟩
      exact wellNamed_of_child hc hw
    exact WellNamed.sequence (fun e he => (harranged e he).1) (fun e he => (harranged e he).2) hplain
  -- Of fields with one key, the last one is left, and it has been inferred as a child, too.
  · intro name entries children _ hfields hwell hplain
    have hdistinct : ∀ f ∈ distinctFields children,
        WellNamed run.strategies f.2 ∧ Extends name f.2.name := by
      intro f hf
      rcases (mem_distinctFields hf).2 with ⟨c, hc, heq⟩
      have hboth := hfields.mp (fun _ _ h h' => And.intro h h') hwell
      rcases exists_mem_left_of_forall₂ hboth hc with ⟨e, _, hfield, hw⟩
      rw [← heq]
      exact wellNamed_of_child hfield.2 hw
    exact WellNamed.mapping (fun f hf => (hdistinct f hf).1) (fun f hf => (hdistinct f hf).2) hplain

/-- Inferred trees are well named. -/
theorem wellNamed_of_infer {run : Inference} {name : String} {v : Value} {t : TypeTree}
    (h : run.infer name v = .ok t) : WellNamed run.strategies t := by
  rcases infer_eq_ok_iff.mp h with ⟨hidentifier, hnode⟩
  exact wellNamed_of_node hnode fun _ => isPlain_of_isIdentifier hidentifier

end Inference

end TypeSketch
