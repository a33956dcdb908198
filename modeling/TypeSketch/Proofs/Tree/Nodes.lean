import TypeSketch.Tree.Merge

/-!
# Nodes of Type Trees

Ways into a type tree that the proofs share. A tree nests lists of trees, so the
recursor that comes with it has a motive for each kind of list; `TypeTree.induct` has
one motive, with the hypothesis for all children of a node. It is the induction that
`induction t with` takes on trees.

Renaming is stated over lists with its own recursion, for the same reason. Here it
becomes a map over the children, and what it leaves alone is stated once: shape, digest,
height and the right to a declaration do not depend on names.

## Main definitions

* `TypeTree.isRecord`: Whether a node is declared field by field.
* `TypeTree.descendants`, `TypeTree.nodes`: The proper descendants of a node, and all nodes.
* `TypeTree.followRename`: A child after its parent has been renamed.

## Theorems

* `TypeTree.induct`, `TypeTree.induct_children`: Induction on trees.
* `TypeTree.mem_descendants`: A descendant is a child or below one.
* `TypeTree.forall_mem_nodes`: What is handed on from node to node.
* `TypeTree.shape_rename`, `TypeTree.digest_rename`, `TypeTree.height_rename`,
  `TypeTree.isAliased_rename`: What renaming leaves alone.
* `TypeTree.renameFields_eq_map`, `TypeTree.renameElements_eq_map`: Renaming as a map.
-/

namespace TypeSketch

namespace TypeTree

/-- Induction on trees, with the hypothesis for all children of a node. -/
@[elab_as_elim, induction_eliminator]
theorem induct {P : TypeTree → Prop}
    (scalar : ∀ name v type, P (.scalar name v type))
    (mapping : ∀ name v form height shape fields, (∀ f ∈ fields, P f.2) →
      P (.mapping name v form height shape fields))
    (sequence : ∀ name v kind height shape elements, (∀ e ∈ elements, P e) →
      P (.sequence name v kind height shape elements)) :
    ∀ t, P t
  | .scalar name v type => scalar name v type
  | .mapping name v form height shape fields =>
    mapping name v form height shape fields fun f hf =>
      have := List.sizeOf_lt_of_mem hf
      induct scalar mapping sequence f.2
  | .sequence name v kind height shape elements =>
    sequence name v kind height shape elements fun e he =>
      have := List.sizeOf_lt_of_mem he
      induct scalar mapping sequence e
termination_by t => sizeOf t
decreasing_by
  · have : sizeOf f.2 < sizeOf f := by
      rcases f with ⟨key, child⟩
      simp only [Prod.mk.sizeOf_spec]
      omega
    simp only [TypeTree.mapping.sizeOf_spec]
    omega
  · simp only [TypeTree.sequence.sizeOf_spec]
    omega

/-- Induction on trees for what is said of the children of a node, whatever its kind. -/
@[elab_as_elim]
theorem induct_children {P : TypeTree → Prop} (node : ∀ t, (∀ c ∈ t.children, P c) → P t) :
    ∀ t, P t := by
  intro t
  induction t with
  | scalar name v type => exact node _ fun c hc => absurd hc List.not_mem_nil
  | mapping name v form height shape fields ih => exact node _ (List.forall_mem_map.mpr ih)
  | sequence name v kind height shape elements ih => exact node _ ih

/-- Whether the node is declared field by field. -/
def isRecord : TypeTree → Bool
  | mapping _ _ (.record _) .. => true
  | _ => false

theorem exists_eq_of_isRecord {t : TypeTree} (h : t.isRecord = true) :
    ∃ name v profile height shape fields, t = .mapping name v (.record profile) height shape fields := by
  cases t with
  | scalar name v type => contradiction
  | mapping name v form height shape fields =>
    cases form with
    | record profile => exact ⟨_, _, _, _, _, _, rfl⟩
    | generic => contradiction
  | sequence name v kind height shape elements => contradiction

theorem isAliased_of_isRecord {s : Strategies} {t : TypeTree} (h : t.isRecord = true) :
    t.isAliased s = true := by
  rcases exists_eq_of_isRecord h with ⟨_, _, _, _, _, _, rfl⟩
  rfl

/-- Only records are merged. -/
theorem merge?_eq_none_of_isRecord {similarity : Nat} {a b : TypeTree}
    (h : ¬(a.isRecord = true ∧ b.isRecord = true)) : a.merge? similarity b = none := by
  unfold merge?
  split
  · exact absurd ⟨rfl, rfl⟩ h
  · rfl

mutual

/-- All nodes below a node, each before those below it. -/
def descendants : TypeTree → List TypeTree
  | scalar .. => []
  | mapping _ _ _ _ _ fields => fieldDescendants fields
  | sequence _ _ _ _ _ elements => elementDescendants elements

def fieldDescendants : List (Value × TypeTree) → List TypeTree
  | [] => []
  | (_, child) :: rest => (child :: descendants child) ++ fieldDescendants rest

def elementDescendants : List TypeTree → List TypeTree
  | [] => []
  | child :: rest => (child :: descendants child) ++ elementDescendants rest

end

/-- A node and all nodes below it. -/
def nodes (t : TypeTree) : List TypeTree := t :: t.descendants

theorem fieldDescendants_eq_flatMap (fields : List (Value × TypeTree)) :
    fieldDescendants fields = (fields.map (·.2)).flatMap nodes := by
  induction fields with
  | nil => rfl
  | cons f rest ih => rw [fieldDescendants, ih, List.map_cons, List.flatMap_cons, nodes]

theorem elementDescendants_eq_flatMap (elements : List TypeTree) :
    elementDescendants elements = elements.flatMap nodes := by
  induction elements with
  | nil => rfl
  | cons e rest ih => rw [elementDescendants, ih, List.flatMap_cons, nodes]

theorem descendants_eq_flatMap (t : TypeTree) : t.descendants = t.children.flatMap nodes := by
  cases t with
  | scalar name v type => rfl
  | mapping name v form height shape fields => exact fieldDescendants_eq_flatMap fields
  | sequence name v kind height shape elements => exact elementDescendants_eq_flatMap elements

theorem mem_descendants {t u : TypeTree} : u ∈ t.descendants ↔ ∃ c ∈ t.children, u ∈ c.nodes := by
  rw [descendants_eq_flatMap, List.mem_flatMap]

theorem mem_nodes {t u : TypeTree} : u ∈ t.nodes ↔ u = t ∨ u ∈ t.descendants := by
  rw [nodes, List.mem_cons]

theorem mem_nodes_self (t : TypeTree) : t ∈ t.nodes := mem_nodes.mpr (Or.inl rfl)

theorem mem_nodes_of_child {t c u : TypeTree} (hc : c ∈ t.children) (hu : u ∈ c.nodes) :
    u ∈ t.nodes :=
  mem_nodes.mpr (Or.inr (mem_descendants.mpr ⟨c, hc, hu⟩))

/-- What a node hands on to its children holds of all nodes below it. -/
theorem forall_mem_nodes {P : TypeTree → Prop} (hchild : ∀ t c, c ∈ t.children → P t → P c)
    {t : TypeTree} (ht : P t) : ∀ u ∈ t.nodes, P u := by
  induction t using induct_children with
  | node t ih =>
    intro u hu
    rcases mem_nodes.mp hu with rfl | hu
    · exact ht
    · rcases mem_descendants.mp hu with ⟨c, hc, hu⟩
      exact ih c hc (hchild t c hc ht) u hu

theorem mem_nodes_trans {t u w : TypeTree} (hu : u ∈ t.nodes) (hw : w ∈ u.nodes) : w ∈ t.nodes := by
  refine forall_mem_nodes (P := fun u => ∀ w ∈ u.nodes, w ∈ t.nodes) ?_ (fun w hw => hw) u hu w hw
  intro a c hc ha w hw
  exact ha w (mem_nodes_of_child hc hw)

/-- A child whose parent has been renamed. It follows if its name starts with the old
    name of the parent. -/
def followRename (oldName newName : String) (child : TypeTree) : TypeTree :=
  match Naming.dropStart? oldName child.name with
  | some suffix => child.rename (newName ++ suffix)
  | none => child

theorem renameFields_eq_map (oldName newName : String) (fields : List (Value × TypeTree)) :
    renameFields oldName newName fields =
      fields.map fun f => (f.1, followRename oldName newName f.2) := by
  induction fields with
  | nil => rfl
  | cons f rest ih => rw [renameFields, ih]; rfl

theorem renameElements_eq_map (oldName newName : String) (elements : List TypeTree) :
    renameElements oldName newName elements = elements.map (followRename oldName newName) := by
  induction elements with
  | nil => rfl
  | cons e rest ih => rw [renameElements, ih]; rfl

@[simp] theorem name_rename (newName : String) (t : TypeTree) :
    (t.rename newName).name = newName := by
  cases t <;> rfl

@[simp] theorem shape_rename (newName : String) (t : TypeTree) :
    (t.rename newName).shape = t.shape := by
  cases t <;> rfl

@[simp] theorem digest_rename (newName : String) (t : TypeTree) :
    (t.rename newName).digest = t.digest :=
  congrArg Shape.digest (shape_rename newName t)

@[simp] theorem height_rename (newName : String) (t : TypeTree) :
    (t.rename newName).height = t.height := by
  cases t <;> rfl

@[simp] theorem isAliased_rename (s : Strategies) (newName : String) (t : TypeTree) :
    (t.rename newName).isAliased s = t.isAliased s := by
  cases t with
  | scalar name v type => rfl
  | mapping name v form height shape fields => cases form <;> rfl
  | sequence name v kind height shape elements => rfl

@[simp] theorem isRecord_rename (newName : String) (t : TypeTree) :
    (t.rename newName).isRecord = t.isRecord := by
  cases t with
  | scalar name v type => rfl
  | mapping name v form height shape fields => cases form <;> rfl
  | sequence name v kind height shape elements => rfl

theorem followRename_cases (oldName newName : String) (child : TypeTree) :
    followRename oldName newName child = child ∨
      ∃ suffix, Naming.dropStart? oldName child.name = some suffix ∧
        followRename oldName newName child = child.rename (newName ++ suffix) := by
  unfold followRename
  cases h : Naming.dropStart? oldName child.name with
  | none => exact Or.inl rfl
  | some suffix => exact Or.inr ⟨suffix, rfl, rfl⟩

@[simp] theorem shape_followRename (oldName newName : String) (child : TypeTree) :
    (followRename oldName newName child).shape = child.shape := by
  rcases followRename_cases oldName newName child with h | ⟨suffix, _, h⟩
  · rw [h]
  · rw [h, shape_rename]

@[simp] theorem digest_followRename (oldName newName : String) (child : TypeTree) :
    (followRename oldName newName child).digest = child.digest :=
  congrArg Shape.digest (shape_followRename oldName newName child)

@[simp] theorem height_followRename (oldName newName : String) (child : TypeTree) :
    (followRename oldName newName child).height = child.height := by
  rcases followRename_cases oldName newName child with h | ⟨suffix, _, h⟩
  · rw [h]
  · rw [h, height_rename]

@[simp] theorem isAliased_followRename (s : Strategies) (oldName newName : String)
    (child : TypeTree) : (followRename oldName newName child).isAliased s = child.isAliased s := by
  rcases followRename_cases oldName newName child with h | ⟨suffix, _, h⟩
  · rw [h]
  · rw [h, isAliased_rename]

/-- Adoption by a record is what a child does when its parent takes the name of that
    record. -/
theorem adopt_eq (oldParent newParent : String) (child : TypeTree) :
    adopt oldParent newParent child =
      if oldParent = newParent then child else followRename oldParent newParent child := by
  rfl

@[simp] theorem shape_adopt (oldParent newParent : String) (child : TypeTree) :
    (adopt oldParent newParent child).shape = child.shape := by
  rw [adopt_eq]
  split
  · rfl
  · rw [shape_followRename]

@[simp] theorem height_adopt (oldParent newParent : String) (child : TypeTree) :
    (adopt oldParent newParent child).height = child.height := by
  rw [adopt_eq]
  split
  · rfl
  · rw [height_followRename]

end TypeTree

end TypeSketch
