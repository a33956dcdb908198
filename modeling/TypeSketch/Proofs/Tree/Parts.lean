import TypeSketch.Proofs.Tree.Inferred
import TypeSketch.Proofs.Tree.Siblings

/-!
# Nodes and Parts

Where the nodes of an inferred tree come from. A node has been made from a part of the
example, and all that has happened to it since is that it has been renamed, or, if it is a
record, that it has been merged with others. So what holds of every node when it is made, and
of renamed and merged nodes if it held before, holds of all nodes of the tree.

## Main definitions

* `Value.IsPart`: The parts of an example that nodes are made from.
* `TypeTree.IsNodewise`: What can be said of nodes one by one.

## Theorems

* `TypeTree.mem_nodes_rename_cases`: The nodes of a renamed tree up to their names.
* `TypeTree.IsNodewise.forall_rename`, `TypeTree.IsNodewise.forall_merge`: Renamed and merged
  trees.
* `Inference.forall_nodes_of_node`: What holds of nodes when they are made.
-/

namespace TypeSketch

/-- A part of a value that a node is made from: the value itself, or a part of an item or of the
    value of an entry. -/
inductive Value.IsPart (part : Value) : Value → Prop
  | self : IsPart part part
  | item {kind : SequenceKind} {items : List Value} {item : Value} (item_mem : item ∈ items)
    (item_part : IsPart part item) : IsPart part (.sequence kind items)
  | entry {entries : List (Value × Value)} {e : Value × Value} (entry_mem : e ∈ entries)
    (value_part : IsPart part e.2) : IsPart part (.mapping entries)

namespace TypeTree

theorem nodes_of_mem_children_rename {newName : String} {t c : TypeTree}
    (hc : c ∈ (t.rename newName).children) :
    ∃ d ∈ t.children, c = d ∨ ∃ name, c = d.rename name := by
  have hfollow : ∃ oldName, ∃ d ∈ t.children, c = followRename oldName newName d := by
    cases t with
    | scalar name v type => exact absurd hc List.not_mem_nil
    | mapping name v form height shape fields =>
      rw [rename, renameFields_eq_map] at hc
      rcases List.mem_map.mp hc with ⟨g, hg, rfl⟩
      rcases List.mem_map.mp hg with ⟨f, hf, rfl⟩
      exact ⟨name, f.2, List.mem_map_of_mem hf, rfl⟩
    | sequence name v kind height shape elements =>
      rw [rename, renameElements_eq_map] at hc
      rcases List.mem_map.mp hc with ⟨d, hd, rfl⟩
      exact ⟨name, d, hd, rfl⟩
  rcases hfollow with ⟨oldName, d, hd, rfl⟩
  refine ⟨d, hd, ?_⟩
  rcases followRename_cases oldName newName d with heq | ⟨suffix, _, heq⟩
  · exact Or.inl heq
  · exact Or.inr ⟨_, heq⟩

/-- A node of a renamed tree is a node of the tree, perhaps under another name. -/
theorem mem_nodes_rename_cases {t u : TypeTree} {newName : String}
    (hu : u ∈ (t.rename newName).nodes) : ∃ w ∈ t.nodes, u = w ∨ ∃ name, u = w.rename name := by
  induction t using induct_children generalizing newName with
  | node t ih =>
    rcases mem_nodes.mp hu with rfl | hu
    · exact ⟨t, mem_nodes_self t, Or.inr ⟨newName, rfl⟩⟩
    · rcases mem_descendants.mp hu with ⟨c, hc, hu⟩
      rcases nodes_of_mem_children_rename hc with ⟨d, hd, rfl | ⟨name, rfl⟩⟩
      · exact ⟨u, mem_nodes_of_child hd hu, Or.inl rfl⟩
      · rcases ih d hd hu with ⟨w, hw, hcases⟩
        exact ⟨w, mem_nodes_of_child hd hw, hcases⟩

/-- What can be said of a node whatever it is called, and of a merge if of both records. -/
structure IsNodewise (Q : TypeTree → Prop) : Prop where
  rename : ∀ t newName, Q t → Q (t.rename newName)
  merge : ∀ similarity a b m, IsMerge similarity a b m → Q a → Q b → Q m

variable {Q : TypeTree → Prop} {t : TypeTree}

theorem forall_nodes_of_children (hroot : Q t) (hchildren : ∀ c ∈ t.children, ∀ u ∈ c.nodes, Q u) :
    ∀ u ∈ t.nodes, Q u := by
  intro u hu
  rcases mem_nodes.mp hu with rfl | hu
  · exact hroot
  · rcases mem_descendants.mp hu with ⟨c, hc, hu⟩
    exact hchildren c hc u hu

theorem forall_nodes_child {c : TypeTree} (h : ∀ u ∈ t.nodes, Q u) (hc : c ∈ t.children) :
    ∀ u ∈ c.nodes, Q u :=
  fun u hu => h u (mem_nodes_of_child hc hu)

theorem IsNodewise.forall_rename (hQ : IsNodewise Q) (h : ∀ u ∈ t.nodes, Q u) (newName : String) :
    ∀ u ∈ (t.rename newName).nodes, Q u := by
  intro u hu
  rcases mem_nodes_rename_cases hu with ⟨w, hw, rfl | ⟨name, rfl⟩⟩
  · exact h u hw
  · exact hQ.rename w name (h w hw)

/-- A merge is a record, and the nodes below it are nodes of the two records. -/
theorem IsNodewise.forall_merge (hQ : IsNodewise Q) {similarity : Nat} {a b m : TypeTree}
    (h : IsMerge similarity a b m) (ha : ∀ u ∈ a.nodes, Q u) (hb : ∀ u ∈ b.nodes, Q u) :
    ∀ u ∈ m.nodes, Q u := by
  have hmerge := hQ.merge _ _ _ _ h (ha a (mem_nodes_self a)) (hb b (mem_nodes_self b))
  cases h with | @intro name theirName _ _ _ _ _ _ _ _ left right _ =>
  refine forall_nodes_of_children hmerge (List.forall_mem_map.mpr ?_)
  refine forall_mem_mergeFields (P := fun c => ∀ u ∈ c.nodes, Q u)
    (fun f hf => forall_nodes_child ha (List.mem_map_of_mem hf)) fun g hg => ?_
  have hchild : ∀ u ∈ g.2.nodes, Q u := forall_nodes_child hb (List.mem_map_of_mem hg)
  rw [adopt_eq]
  split
  · exact hchild
  · rcases followRename_cases theirName name g.2 with heq | ⟨suffix, _, heq⟩ <;> rw [heq]
    · exact hchild
    · exact hQ.forall_rename hchild _

end TypeTree

namespace Inference

open TypeTree

/-- What holds of all nodes that are made from parts of an example holds of all nodes of its
    tree. -/
theorem forall_nodes_of_node {run : Inference} {Q : TypeTree → Prop} (hQ : IsNodewise Q)
    {v : Value} (hnode : ∀ name part u, part.IsPart v → run.IsNode name part u → Q u)
    {name : String} {t : TypeTree} (h : run.node name v = .ok t) : ∀ u ∈ t.nodes, Q u := by
  refine node_induct (P := fun _ v t =>
    (∀ name part u, part.IsPart v → run.IsNode name part u → Q u) → ∀ u ∈ t.nodes, Q u)
    ?_ ?_ ?_ v name t h hnode
  · intro name v type hget hnode
    refine forall_nodes_of_children ?_ fun c hc => absurd hc List.not_mem_nil
    exact hnode name v _ .self (.scalar hget)
  · intro name kind items rule elementKind trees hget hkind hchildren htrees hnode
    refine forall_nodes_of_children (hnode name _ _ .self (.sequence hget hkind hchildren)) ?_
    -- Merging and renaming make new nodes, and for them the property has to be handed on.
    refine forall_mem_arrange (fun _ _ _ ha hb hm => hQ.forall_merge hm ha hb)
      (fun _ _ ht _ => hQ.forall_rename ht _) fun t ht => ?_
    rcases exists_mem_left_of_forall₂ htrees ht with ⟨item, hitem, htree⟩
    exact htree fun name part u hpart => hnode name part u (.item hitem hpart)
  · intro name entries children hget hfields hchildren hnode
    refine forall_nodes_of_children (hnode name _ _ .self (.mapping hget hfields))
      (List.forall_mem_map.mpr fun f hf => ?_)
    rcases (mem_distinctFields hf).2 with ⟨c, hc, heq⟩
    rcases exists_mem_left_of_forall₂ hchildren hc with ⟨e, he, htree⟩
    rw [← heq]
    exact htree fun name part u hpart =>
      hnode name part u (.entry (List.fst_mem_of_mem_zipIdx he) hpart)

end Inference

end TypeSketch
