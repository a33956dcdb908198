import TypeSketch.Proofs.Names.ChildNames

/-!
# Names of All Nodes

If the name of a value is an identifier, then so are the names of all nodes of its tree,
those included that are never declared, and also after records have been merged and
siblings have been numbered.

Inference makes names from identifiers by appending what can stand in one, but renaming
exchanges the name of the root at the start of all others. A renamed node keeps what its
name has behind the name of the root, and that part is behind the first character of an
identifier, where more characters may stand. All names in a tree start as the name of the
root does, and none of them is a reserved word, because a suffix starts with no small letter.

## Main definitions

* `TypeTree.HasIdentifiers`: Trees in which all names are identifiers.

## Theorems

* `TypeTree.HasIdentifiers.rename`, `TypeTree.IsMerge.hasIdentifiers`,
  `TypeTree.hasIdentifiers_arrange`: What keeps names identifiers.
* `Inference.isIdentifier_of_infer`: Names in an inferred tree are identifiers.
-/

namespace TypeSketch

namespace Naming

/-- A suffix that goes on from an identifier to another one goes on from every identifier. -/
theorem isIdentifier_append {oldName newName suffix : String} (hsuffix : IsSuffix suffix)
    (hne : oldName ≠ "") (hold : isIdentifier (oldName ++ suffix) = true)
    (hnew : isIdentifier newName = true) : isIdentifier (newName ++ suffix) = true := by
  have hcontinues := (isIdentifier_iff.mp hold).2.1
  rw [continues_append hne] at hcontinues
  refine Extends.isIdentifier ⟨suffix, hsuffix, rfl⟩ hnew ?_
  rw [continues_append (ne_empty_of_isIdentifier hnew)]
  exact ⟨(isIdentifier_iff.mp hnew).2.1, hcontinues.2⟩

end Naming

namespace TypeTree

open Naming

/-- Every node is called by an identifier. -/
structure HasIdentifiers (s : Strategies) (t : TypeTree) : Prop where
  wellNamed : WellNamed s t
  identifiers : ∀ u ∈ t.nodes, isIdentifier u.name = true

variable {s : Strategies} {t c : TypeTree}

theorem HasIdentifiers.root (h : HasIdentifiers s t) : isIdentifier t.name = true :=
  h.identifiers t (mem_nodes_self t)

theorem HasIdentifiers.child (h : HasIdentifiers s t) (hc : c ∈ t.children) :
    HasIdentifiers s c where
  wellNamed := h.wellNamed.child hc
  identifiers := fun u hu => h.identifiers u (mem_nodes_of_child hc hu)

/-- A tree is made of its root and the trees of its children. -/
theorem HasIdentifiers.of_children (hwell : WellNamed s t) (hroot : isIdentifier t.name = true)
    (hchildren : ∀ c ∈ t.children, HasIdentifiers s c) : HasIdentifiers s t where
  wellNamed := hwell
  identifiers := by
    intro u hu
    rcases mem_nodes.mp hu with rfl | hu
    · exact hroot
    · rcases mem_descendants.mp hu with ⟨c, hc, hu⟩
      exact (hchildren c hc).identifiers u hu

/-- A child that follows its parent to another name. -/
theorem HasIdentifiers.followRename {oldName newName : String} (h : HasIdentifiers s c)
    (hrename : ∀ name, isIdentifier name = true → HasIdentifiers s (c.rename name))
    (hextends : Extends oldName c.name) (hne : oldName ≠ "") (hnew : isIdentifier newName = true) :
    HasIdentifiers s (followRename oldName newName c) := by
  rcases hextends with ⟨suffix, hsuffix, hname⟩
  rw [followRename_of_name_eq hname]
  refine hrename _ (isIdentifier_append hsuffix hne ?_ hnew)
  rw [← hname]
  exact h.root

theorem HasIdentifiers.rename (h : HasIdentifiers s t) {newName : String}
    (hnew : isIdentifier newName = true) : HasIdentifiers s (t.rename newName) := by
  induction t using induct_children generalizing newName with
  | node t ih =>
    refine HasIdentifiers.of_children (h.wellNamed.rename fun _ => isPlain_of_isIdentifier hnew)
      (by rwa [name_rename]) ?_
    rw [children_rename]
    refine List.forall_mem_map.mpr fun c hc => ?_
    exact (h.child hc).followRename (fun _ hname => ih c hc (h.child hc) hname)
      (h.wellNamed.extends_child hc) (ne_empty_of_isIdentifier h.root) hnew

/-- The names in a merge of records are identifiers, if those in the two are. -/
theorem IsMerge.hasIdentifiers {similarity : Nat} {a b m : TypeTree} (h : IsMerge similarity a b m)
    (ha : HasIdentifiers s a) (hb : HasIdentifiers s b) : HasIdentifiers s m := by
  have hwell : WellNamed s m := h.wellNamed ha.wellNamed hb.wellNamed
  cases h with | @intro name theirName _ _ _ _ _ _ _ _ left right _ =>
  refine HasIdentifiers.of_children hwell ha.root (List.forall_mem_map.mpr ?_)
  refine forall_mem_mergeFields (P := HasIdentifiers s)
    (fun f hf => ha.child (List.mem_map_of_mem hf)) fun g hg => ?_
  have hchild := hb.child (List.mem_map_of_mem hg)
  rw [adopt_eq_followRename]
  exact hchild.followRename (fun _ hname => hchild.rename hname)
    (hb.wellNamed.extends_child (List.mem_map_of_mem hg)) (ne_empty_of_isIdentifier hb.root) ha.root

/-- The names in the arranged elements of something that an identifier names. -/
theorem hasIdentifiers_arrange {kind : ElementKind} {trees : List TypeTree} {parent : String}
    (hparent : isIdentifier parent = true)
    (h : ∀ t ∈ trees, HasIdentifiers s t ∧ Extends parent t.name) :
    ∀ u ∈ arrange s kind trees, HasIdentifiers s u ∧ Extends parent u.name := by
  refine forall_mem_arrange ?_ ?_ h
  · intro a b m ha hb hm
    refine ⟨hm.hasIdentifiers ha.1 hb.1, ?_⟩
    cases hm
    exact ha.2
  · intro t i ht _
    have hextends : Extends parent (t.name ++ toString (i + 1)) := ht.2.append _
    refine ⟨ht.1.rename (hextends.isIdentifier hparent ?_), by rwa [name_rename]⟩
    rw [continues_append (ne_empty_of_isIdentifier ht.1.root)]
    exact ⟨(isIdentifier_iff.mp ht.1.root).2.1, fun _ => isIdentifierContinue_of_mem_toString⟩

end TypeTree

namespace Inference

open TypeTree Naming

theorem hasIdentifiers_of_node {run : Inference} {name : String} {v : Value} {t : TypeTree}
    (h : run.node name v = .ok t) (hname : isIdentifier name = true) :
    HasIdentifiers run.strategies t := by
  -- What is true of the children goes on to a node that has been made of them.
  have hnode : ∀ {name v t}, run.node name v = .ok t → isIdentifier name = true →
      (∀ c ∈ t.children, HasIdentifiers run.strategies c) → HasIdentifiers run.strategies t := by
    intro name v t h hname hchildren
    refine HasIdentifiers.of_children
      (wellNamed_of_node h fun _ => isPlain_of_isIdentifier hname) ?_ hchildren
    rw [name_of_node h]
    exact hname
  refine node_induct (P := fun name v t => run.node name v = .ok t → isIdentifier name = true →
    HasIdentifiers run.strategies t) ?_ ?_ ?_ v name t h h hname
  · exact fun name v type _ h hname => hnode h hname fun c hc => absurd hc List.not_mem_nil
  · intro name kind items rule elementKind trees _ _ htrees hidentifiers h hname
    -- Numbers are put behind names of elements, and what goes on an identifier stays one.
    have hextends : ∀ t ∈ trees, HasIdentifiers run.strategies t ∧ Extends name t.name := by
      intro t ht
      have hboth := htrees.mp (fun _ _ h h' => And.intro h h') hidentifiers
      rcases exists_mem_left_of_forall₂ hboth ht with ⟨item, _, hchild, ih⟩
      rw [child_eq_node hname] at hchild
      refine ⟨ih hchild (isIdentifier_childName hname _), ?_⟩
      rw [name_of_node hchild]
      exact extends_childName name _
    exact hnode h hname fun c hc => (hasIdentifiers_arrange hname hextends c hc).1
  · intro name entries children _ hfields hidentifiers h hname
    refine hnode h hname (List.forall_mem_map.mpr fun f hf => ?_)
    rcases (mem_distinctFields hf).2 with ⟨c, hc, heq⟩
    have hboth := hfields.mp (fun _ _ h h' => And.intro h h') hidentifiers
    rcases exists_mem_left_of_forall₂ hboth hc with ⟨e, _, hfield, ih⟩
    have hchild := hfield.2
    rw [child_eq_node hname] at hchild
    rw [← heq]
    exact ih hchild (isIdentifier_childName hname _)

/-- All names in an inferred tree are identifiers. -/
theorem isIdentifier_of_infer {run : Inference} {name : String} {v : Value} {t u : TypeTree}
    (h : run.infer name v = .ok t) (hu : u ∈ t.nodes) : isIdentifier u.name = true := by
  rcases infer_eq_ok_iff.mp h with ⟨hname, hnode⟩
  exact (hasIdentifiers_of_node hnode hname).identifiers u hu

end Inference

end TypeSketch
