import TypeSketch.Proofs.Names.WellNamed
import TypeSketch.Proofs.Tree.Coherence

/-!
# Renamed Trees

Renaming a well named tree exchanges the name of its root at the start of every name in it
and leaves the rest of each name as it is. So what is known of the names in a tree carries
over to the renamed one suffix by suffix, and of several renamings only the last one counts.

## Theorems

* `TypeTree.children_rename`, `TypeTree.fields_rename`: The children of a renamed node.
* `TypeTree.rename_name`: A node under its own name.
* `TypeTree.WellNamed.forall₂_nodes_rename`: The nodes of a renamed tree.
* `TypeTree.WellNamed.rename_rename`: Two renamings.
* `TypeTree.rename_ofElements`, `TypeTree.rename_ofFields`: The renamed node with some children.
-/

namespace TypeSketch

namespace TypeTree

open Naming

variable {s : Strategies}

theorem children_rename (newName : String) (t : TypeTree) :
    (t.rename newName).children = t.children.map (followRename t.name newName) := by
  cases t with
  | scalar name v type => rfl
  | mapping name v form height shape fields =>
    rw [rename, renameFields_eq_map, children, children, List.map_map, List.map_map]
    rfl
  | sequence name v kind height shape elements =>
    rw [rename, renameElements_eq_map]
    rfl

theorem fields_rename (t : TypeTree) (newName : String) :
    (t.rename newName).fields = t.fields.map fun f => (f.1, followRename t.name newName f.2) := by
  cases t with
  | scalar name v type => rfl
  | mapping name v form height shape fields => exact renameFields_eq_map name newName fields
  | sequence name v kind height shape elements => rfl

/-- A child whose name starts with that of its parent follows the parent. -/
theorem followRename_of_name_eq {oldName newName suffix : String} {c : TypeTree}
    (h : c.name = oldName ++ suffix) : followRename oldName newName c = c.rename (newName ++ suffix) := by
  rw [followRename, dropStart?_eq_some_iff.mpr h]

theorem followRename_self {c : TypeTree} (h : c.rename c.name = c) (oldName : String) :
    followRename oldName oldName c = c := by
  rcases followRename_cases oldName oldName c with heq | ⟨suffix, hsuffix, heq⟩
  · exact heq
  · rw [heq, ← dropStart?_eq_some_iff.mp hsuffix, h]

/-- A node that is given its own name stays as it is, and so does all below it. -/
theorem rename_name (t : TypeTree) : t.rename t.name = t := by
  induction t with
  | scalar name v type => rfl
  | mapping name v form height shape fields ih =>
    have hfields : ∀ f ∈ fields, (f.1, followRename name name f.2) = f :=
      fun f hf => Prod.ext rfl (followRename_self (ih f hf) name)
    rw [TypeTree.name, rename, renameFields_eq_map, List.map_congr_left hfields, List.map_id']
  | sequence name v kind height shape elements ih =>
    rw [TypeTree.name, rename, renameElements_eq_map,
      List.map_congr_left fun e he => followRename_self (ih e he) name, List.map_id']

/-- To adopt a child is to let it follow its parent. -/
theorem adopt_eq_followRename (oldParent newParent : String) (c : TypeTree) :
    adopt oldParent newParent c = followRename oldParent newParent c := by
  rw [adopt_eq]
  split
  · next heq => rw [heq, followRename_self (rename_name c)]
  · rfl

/-- Renaming reaches all nodes. Each keeps what its name has behind the name of the root. -/
theorem WellNamed.forall₂_nodes_rename {t : TypeTree} (h : WellNamed s t) (newName : String) :
    List.Forall₂ (fun u w => ∃ suffix, u.name = t.name ++ suffix ∧ w = u.rename (newName ++ suffix))
      t.nodes (t.rename newName).nodes := by
  induction t using induct_children generalizing newName with
  | node t ih =>
    rw [nodes, nodes, descendants_eq_flatMap, descendants_eq_flatMap, children_rename,
      List.flatMap_map]
    refine List.Forall₂.cons ⟨"", by rw [String.append_empty], by rw [String.append_empty]⟩ ?_
    refine forall₂_flatMap fun c hc => ?_
    rcases h.extends_child hc with ⟨first, _, hname⟩
    rw [followRename_of_name_eq hname]
    refine (ih c hc (h.child hc) (newName ++ first)).imp ?_
    rintro u w ⟨rest, hu, hw⟩
    refine ⟨first ++ rest, ?_, ?_⟩
    · rw [hu, hname, String.append_assoc]
    · rw [hw, String.append_assoc]

theorem followRename_followRename {oldName middle newName : String} {c : TypeTree}
    (h : Extends oldName c.name) (hrename : ∀ n m, (c.rename n).rename m = c.rename m) :
    followRename middle newName (followRename oldName middle c) = followRename oldName newName c := by
  rcases h with ⟨suffix, _, hname⟩
  rw [followRename_of_name_eq hname, followRename_of_name_eq (name_rename _ c),
    followRename_of_name_eq hname, hrename]

/-- Of two renamings the first one leaves no trace. -/
theorem WellNamed.rename_rename {t : TypeTree} (h : WellNamed s t) (middle newName : String) :
    (t.rename middle).rename newName = t.rename newName := by
  induction h generalizing middle newName with
  | scalar name v type => rfl
  | @mapping name v form height shape fields _ hextended _ ih =>
    rw [TypeTree.rename, TypeTree.rename, TypeTree.rename, renameFields_eq_map, renameFields_eq_map,
      renameFields_eq_map, List.map_map]
    refine congrArg _ (List.map_congr_left fun f hf => congrArg (Prod.mk f.1) ?_)
    exact followRename_followRename (hextended f hf) (ih f hf)
  | @sequence name v kind height shape elements _ hextended _ ih =>
    rw [TypeTree.rename, TypeTree.rename, TypeTree.rename, renameElements_eq_map, renameElements_eq_map,
      renameElements_eq_map, List.map_map]
    refine congrArg _ (List.map_congr_left fun e he => ?_)
    exact followRename_followRename (hextended e he) (ih e he)

section Nodes

variable (name newName : String) (v : Value)

theorem rename_ofElements (kind : ElementKind) (elements : List TypeTree) :
    (ofElements name v kind elements).rename newName =
      ofElements newName v kind (elements.map (followRename name newName)) := by
  rw [ofElements_map (height_followRename name newName) (shape_followRename name newName),
    ofElements, rename, renameElements_eq_map]

theorem rename_ofFields (form : MappingForm) (fields : List (Value × TypeTree)) :
    (ofFields name v form fields).rename newName =
      ofFields newName v form (fields.map fun f => (f.1, followRename name newName f.2)) := by
  rw [ofFields_map (height_followRename name newName) (shape_followRename name newName),
    ofFields, rename, renameFields_eq_map]

end Nodes

end TypeTree

end TypeSketch
