import TypeSketch.Proofs.Shape.Stream
import TypeSketch.Proofs.Tree.Coherence
import TypeSketch.Proofs.Tree.Parts

/-!
# Digests That Do Not Collide

Inference compares digests where shapes are meant: elements of one digest are one, and two
records are merged if what they share has one digest. That is as it should be while no two of
the shapes that come up have one digest. `Inference.made` lists the nodes that come up for a
value, and `Inference.CollisionFree` says that their digests do not collide.

All nodes of the tree are in the list, and so are the merged records that are dropped in the
end, because another one has their digest. Names do not matter to any of this, and the nodes
are listed as they are first made.

The height of a node is where a collision would show first. A merge keeps the greater one of
two heights, and a field that both records have is taken from the first one. It has the height
of the field that is left out because it has the shape of that field.

## Main definitions

* `TypeTree.IsKnown`: The shapes below a node are listed, and heights are those of shapes.
* `Inference.made`: The nodes that come up in inference.
* `Inference.CollisionFree`: Their digests do not collide.
* `Inference.twins`: Digests that do.

## Theorems

* `TypeTree.IsKnown.shape_eq_of_digest_eq`: Shared fields have one shape.
* `TypeTree.IsKnown.rename`, `TypeTree.IsKnown.merge`: What is known stays known.
* `Inference.isKnown_of_node`: Inferred trees are known.
* `Inference.CollisionFree.height_eq`: The height of a node is that of its shape.
* `Inference.CollisionFree.isAliased_eq`: Whether a node is declared depends on its shape.
-/

namespace TypeSketch

namespace TypeTree

/-- A coherent tree in which every height is that of the shape, and the shapes of whose children
    are among the given ones. -/
structure IsKnown (s : Strategies) (shapes : List Shape) (t : TypeTree) : Prop where
  coherent : Coherent s t
  height_eq : ∀ u ∈ t.nodes, u.height = u.shape.height
  child_mem : ∀ c ∈ t.children, c.shape ∈ shapes

variable {s : Strategies} {shapes : List Shape}

/-- Renamed trees have their nodes from a tree, up to the names. -/
theorem forall_height_eq_rename {t : TypeTree} (h : ∀ u ∈ t.nodes, u.height = u.shape.height)
    (newName : String) : ∀ u ∈ (t.rename newName).nodes, u.height = u.shape.height := by
  intro u hu
  rcases mem_nodes_rename_cases hu with ⟨w, hw, rfl | ⟨name, rfl⟩⟩
  · exact h u hw
  · rw [height_rename, shape_rename]
    exact h w hw

theorem IsKnown.rename {t : TypeTree} (h : IsKnown s shapes t) (newName : String) :
    IsKnown s shapes (t.rename newName) := by
  refine ⟨h.coherent.rename newName, forall_height_eq_rename h.height_eq newName, fun c hc => ?_⟩
  rcases nodes_of_mem_children_rename hc with ⟨d, hd, rfl | ⟨name, rfl⟩⟩
  · exact h.child_mem c hd
  · rw [shape_rename]
    exact h.child_mem d hd

/-- Children of two known nodes have one shape if they have one digest. -/
theorem IsKnown.shape_eq_of_digest_eq (hfree : Shape.CollisionFree shapes) {a b c d : TypeTree}
    (ha : IsKnown s shapes a) (hb : IsKnown s shapes b) (hc : c ∈ a.children) (hd : d ∈ b.children)
    (h : c.digest = d.digest) : c.shape = d.shape :=
  hfree _ (ha.child_mem c hc) _ (hb.child_mem d hd) h

/-- The shapes in a merge are those of the two records: a field of the second one that is
    not taken over has its shape in the first one. -/
theorem maxHeight_mergeFields {similarity : Nat} {ourName theirName : String}
    {left right : List (Value × TypeTree)} (hright : Value.DistinctKeys right)
    (htexts : Value.TextKeys right) (hsim : areSimilar similarity left right = true)
    (hshared : ∀ f ∈ left, ∀ g ∈ right, f.2.digest = g.2.digest → f.2.shape = g.2.shape) :
    Shape.maxHeight (((mergeFields ourName theirName left right).map (·.2)).map shape) =
      max (Shape.maxHeight ((left.map (·.2)).map shape))
        (Shape.maxHeight ((right.map (·.2)).map shape)) := by
  refine Nat.le_antisymm ?_ (Nat.max_le.mpr ⟨?_, ?_⟩)
  -- Nothing in the merge is higher than both records, as its fields are theirs.
  · simp only [Shape.maxHeight_le_iff, List.forall_mem_map]
    intro f hf
    rw [mergeFields_eq_append hright] at hf
    rcases List.mem_append.mp hf with hf | hf
    · refine Nat.le_trans (Shape.maxHeight_le_iff.mp (Nat.le_refl _) _ ?_) (Nat.le_max_left _ _)
      exact List.mem_map_of_mem (List.mem_map_of_mem hf)
    · rcases mem_newFields.mp hf with ⟨g, hg, _, rfl⟩
      refine Nat.le_trans (Shape.maxHeight_le_iff.mp (Nat.le_refl _) _ ?_) (Nat.le_max_right _ _)
      rw [shape_adopt]
      exact List.mem_map_of_mem (List.mem_map_of_mem hg)
  · simp only [Shape.maxHeight_le_iff, List.forall_mem_map]
    intro f hf
    refine Shape.maxHeight_le_iff.mp (Nat.le_refl _) _ (List.mem_map_of_mem (List.mem_map_of_mem ?_))
    rw [mergeFields_eq_append hright]
    exact List.mem_append_left _ hf
  -- A field of the second record that is left out has its shape in the first one.
  · simp only [Shape.maxHeight_le_iff, List.forall_mem_map]
    intro g hg
    have hkept : ∃ f ∈ mergeFields ourName theirName left right,
        f.1 = g.1 ∧ f.2.shape = g.2.shape :=
      exists_shape_mem_mergeFields hright htexts hsim hg fun f hf => hshared f hf g hg
    rcases hkept with ⟨f, hf, _, hshape⟩
    rw [← hshape]
    exact Shape.maxHeight_le_iff.mp (Nat.le_refl _) _ (List.mem_map_of_mem (List.mem_map_of_mem hf))

/-- A record whose own height is that of its shape, and the nodes below it. -/
theorem IsKnown.mapping {name : String} {v : Value} {form : MappingForm} {height : Nat}
    {shape : Shape} {fields : List (Value × TypeTree)}
    (hcoherent : Coherent s (.mapping name v form height shape fields))
    (hheight : height = (shapeOfFields form fields).height)
    (hfields : ∀ f ∈ fields, ∀ u ∈ f.2.nodes, u.height = u.shape.height)
    (hmem : ∀ f ∈ fields, f.2.shape ∈ shapes) :
    IsKnown s shapes (.mapping name v form height shape fields) := by
  refine ⟨hcoherent, ?_, List.forall_mem_map.mpr hmem⟩
  refine forall_nodes_of_children ?_ (List.forall_mem_map.mpr hfields)
  cases hcoherent with | mapping _ _ _ _ hshape =>
  rw [TypeTree.height, TypeTree.shape, hheight, hshape]

/-- The shapes of the children of a merge are those of the children of the two records. -/
theorem IsMerge.child_mem {similarity : Nat} {a b m : TypeTree} (h : IsMerge similarity a b m)
    (ha : ∀ c ∈ a.children, c.shape ∈ shapes) (hb : ∀ c ∈ b.children, c.shape ∈ shapes) :
    ∀ c ∈ m.children, c.shape ∈ shapes := by
  cases h with | intro =>
  refine List.forall_mem_map.mpr (forall_mem_mergeFields (P := fun c => c.shape ∈ shapes)
    (fun f hf => ha _ (List.mem_map_of_mem hf)) fun g hg => ?_)
  rw [shape_adopt]
  exact hb _ (List.mem_map_of_mem hg)

/-- A merge of known records is known, if the digests of what they share do not collide. -/
theorem IsKnown.merge (hfree : Shape.CollisionFree shapes) {similarity : Nat} {a b m : TypeTree}
    (ha : IsKnown s shapes a) (hb : IsKnown s shapes b) (h : IsMerge similarity a b m) :
    IsKnown s shapes m := by
  have hm := h.coherent ha.coherent hb.coherent
  have hchildren := h.child_mem ha.child_mem hb.child_mem
  have hshared := fun c hc d hd => ha.shape_eq_of_digest_eq hfree hb (c := c) (d := d) hc hd
  rcases ha with ⟨ha, hheight, _⟩
  rcases hb with ⟨hb, hheight', _⟩
  cases h with | @intro name theirName _ _ ours theirs height theirHeight _ _ left right hsim =>
  have hroot : height = (shapeOfFields (.record ours) left).height := by
    rcases ha with _ | ⟨_, _, _, _, hshape⟩
    rw [← hshape]
    exact hheight _ (mem_nodes_self _)
  have hroot' : theirHeight = (shapeOfFields (.record theirs) right).height := by
    rcases hb with _ | ⟨_, _, _, _, hshape⟩
    rw [← hshape]
    exact hheight' _ (mem_nodes_self _)
  rcases hb with _ | ⟨_, hdistinct', hfits', _, _⟩
  refine IsKnown.mapping hm ?_ ?_ ?_
  -- The greater one of the two heights is that of the fields of both.
  · rw [height_shapeOfFields, maxHeight_mergeFields hdistinct' hfits'.textKeys hsim
      (fun f hf g hg => hshared _ (List.mem_map_of_mem hf) _ (List.mem_map_of_mem hg)),
      hroot, hroot', height_shapeOfFields, height_shapeOfFields]
    omega
  -- A field of the other record comes in under a new name, which leaves its height alone.
  · refine forall_mem_mergeFields (P := fun c => ∀ u ∈ c.nodes, u.height = u.shape.height)
      (fun f hf u hu => hheight u (mem_nodes_of_child (List.mem_map_of_mem hf) hu))
      fun g hg => ?_
    have hchild : ∀ u ∈ g.2.nodes, u.height = u.shape.height :=
      fun u hu => hheight' u (mem_nodes_of_child (List.mem_map_of_mem hg) hu)
    rw [adopt_eq]
    split
    · exact hchild
    · rcases followRename_cases theirName name g.2 with heq | ⟨suffix, _, heq⟩ <;> rw [heq]
      · exact hchild
      · exact forall_height_eq_rename hchild _
  · exact fun f hf => hchildren f.2 (List.mem_map_of_mem hf)

/-- Arranged elements of known ones are known. -/
theorem isKnown_arrange (hfree : Shape.CollisionFree shapes) {kind : ElementKind}
    {trees : List TypeTree} (h : ∀ t ∈ trees, IsKnown s shapes t) :
    ∀ u ∈ arrange s kind trees, IsKnown s shapes u :=
  forall_mem_arrange (fun _ _ _ ha hb hm => ha.merge hfree hb hm) (fun _ _ ht _ => ht.rename _) h

end TypeTree

namespace Inference

open TypeTree

/-- The nodes of a tree, if there is one. -/
def nodesOf {ε : Type} : Except ε TypeTree → List TypeTree
  | .ok t => t.nodes
  | .error _ => []

/-- The elements of a sequence once similar records are merged. -/
def gatheredItems (run : Inference) (name : String) (kind : SequenceKind) (items : List Value) :
    List TypeTree :=
  match run.registry.get? (.sequence kind), elementNodes run name items with
  | some (.container rule), .ok trees =>
    match rule.elementKind? run.strategies.tupleSize kind with
    | some elementKind => gathered run.strategies elementKind trees
    | none => []
  | _, _ => []

mutual

/-- The nodes that come up when the tree of a value is inferred: those of its tree and of the
    trees of its parts, and the merged records among the elements of its sequences. -/
def made (run : Inference) (name : String) : Value → List TypeTree
  | .atom a => nodesOf (run.node name (.atom a))
  | .sequence kind items =>
    nodesOf (run.node name (.sequence kind items)) ++
      (gatheredItems run name kind items ++ madeItems run name items)
  | .mapping entries =>
    nodesOf (run.node name (.mapping entries)) ++ madeEntries run name 0 entries

/-- The nodes that come up for the items of a sequence. -/
def madeItems (run : Inference) (parent : String) : List Value → List TypeTree
  | [] => []
  | item :: rest =>
    made run (Naming.childName parent (.element item)) item ++ madeItems run parent rest

/-- The nodes that come up for the entries of a mapping, from a position on. -/
def madeEntries (run : Inference) (parent : String) (position : Nat) :
    List (Value × Value) → List TypeTree
  | [] => []
  | (key, item) :: rest =>
    made run (Naming.childName parent (.field key position)) item ++
      madeEntries run parent (position + 1) rest

end

/-- No two shapes that come up when the tree of a value is inferred have one digest. -/
def CollisionFree (run : Inference) (name : String) (v : Value) : Prop :=
  Shape.CollisionFree ((run.made name v).map TypeTree.shape)

instance (run : Inference) (name : String) (v : Value) : Decidable (run.CollisionFree name v) :=
  inferInstanceAs (Decidable (Shape.CollisionFree _))

/-- Two dicts whose digests do collide. -/
def twins : Value × Value :=
  (.mapping [(.str "k23fc05e49d5a315f", .int 1)], .mapping [(.str "kd8f2aae319828754", .int 1)])

variable {run : Inference} {name : String} {v : Value} {t : TypeTree}

theorem mem_made_of_node (h : run.node name v = .ok t) {u : TypeTree} (hu : u ∈ t.nodes) :
    u ∈ run.made name v := by
  cases v <;> rw [made, h]
  case atom => exact hu
  all_goals exact List.mem_append_left _ hu

theorem mem_madeItems {items : List Value} {item : Value} (hitem : item ∈ items) {u : TypeTree}
    (hu : u ∈ run.made (Naming.childName name (.element item)) item) :
    u ∈ run.madeItems name items := by
  induction items with
  | nil => exact absurd hitem List.not_mem_nil
  | cons first rest ih =>
    rw [madeItems]
    rcases List.mem_cons.mp hitem with rfl | hitem
    · exact List.mem_append_left _ hu
    · exact List.mem_append_right _ (ih hitem)

theorem exists_of_mem_madeItems {items : List Value} {u : TypeTree}
    (hu : u ∈ run.madeItems name items) :
    ∃ item ∈ items, u ∈ run.made (Naming.childName name (.element item)) item := by
  induction items with
  | nil => exact absurd hu List.not_mem_nil
  | cons first rest ih =>
    rw [madeItems] at hu
    rcases List.mem_append.mp hu with hu | hu
    · exact ⟨first, List.mem_cons_self, hu⟩
    · rcases ih hu with ⟨item, hitem, hu⟩
      exact ⟨item, List.mem_cons_of_mem first hitem, hu⟩

theorem mem_made_of_item {kind : SequenceKind} {items : List Value} {item : Value}
    (hitem : item ∈ items) {u : TypeTree}
    (hu : u ∈ run.made (Naming.childName name (.element item)) item) :
    u ∈ run.made name (.sequence kind items) := by
  rw [made]
  exact List.mem_append_right _ (List.mem_append_right _ (mem_madeItems hitem hu))

theorem mem_madeEntries {entries : List (Value × Value)} {position : Nat}
    {e : (Value × Value) × Nat} (he : e ∈ entries.zipIdx position) {u : TypeTree}
    (hu : u ∈ run.made (Naming.childName name (.field e.1.1 e.2)) e.1.2) :
    u ∈ run.madeEntries name position entries := by
  induction entries generalizing position with
  | nil => exact absurd he List.not_mem_nil
  | cons first rest ih =>
    rcases first with ⟨key, item⟩
    rw [madeEntries]
    rw [List.zipIdx_cons] at he
    rcases List.mem_cons.mp he with rfl | he
    · exact List.mem_append_left _ hu
    · exact List.mem_append_right _ (ih he)

theorem exists_of_mem_madeEntries {entries : List (Value × Value)} {position : Nat} {u : TypeTree}
    (hu : u ∈ run.madeEntries name position entries) :
    ∃ e ∈ entries.zipIdx position,
      u ∈ run.made (Naming.childName name (.field e.1.1 e.2)) e.1.2 := by
  induction entries generalizing position with
  | nil => exact absurd hu List.not_mem_nil
  | cons first rest ih =>
    rcases first with ⟨key, item⟩
    rw [madeEntries] at hu
    rw [List.zipIdx_cons]
    rcases List.mem_append.mp hu with hu | hu
    · exact ⟨((key, item), position), List.mem_cons_self, hu⟩
    · rcases ih hu with ⟨e, he, hu⟩
      exact ⟨e, List.mem_cons_of_mem _ he, hu⟩

theorem mem_made_of_entry {entries : List (Value × Value)} {e : (Value × Value) × Nat}
    (he : e ∈ entries.zipIdx) {u : TypeTree}
    (hu : u ∈ run.made (Naming.childName name (.field e.1.1 e.2)) e.1.2) :
    u ∈ run.made name (.mapping entries) := by
  rw [made]
  exact List.mem_append_right _ (mem_madeEntries he hu)

theorem mem_made_of_gathered {kind : SequenceKind} {items : List Value} {rule : ContainerRule}
    {elementKind : ElementKind} {trees : List TypeTree}
    (hget : run.registry.get? (.sequence kind) = some (.container rule))
    (hkind : rule.elementKind? run.strategies.tupleSize kind = some elementKind)
    (htrees : List.Forall₂ (fun item t => run.child name (.element item) item = .ok t) items trees)
    {u : TypeTree} (hu : u ∈ gathered run.strategies elementKind trees) :
    u ∈ run.made name (.sequence kind items) := by
  have hgathered : gatheredItems run name kind items = gathered run.strategies elementKind trees := by
    rw [gatheredItems, hget, elementNodes_eq_ok_iff.mpr htrees]
    dsimp only
    rw [hkind]
  rw [made, hgathered]
  exact List.mem_append_right _ (List.mem_append_left _ hu)

/-- What comes up for an item comes up for the sequence. -/
theorem CollisionFree.of_item {kind : SequenceKind} {items : List Value}
    (hfree : run.CollisionFree name (.sequence kind items)) {item : Value} (hitem : item ∈ items) :
    run.CollisionFree (Naming.childName name (.element item)) item :=
  hfree.mono (List.map_subset TypeTree.shape fun _ hu => mem_made_of_item hitem hu)

/-- What comes up for the value of an entry comes up for the mapping. -/
theorem CollisionFree.of_entry {entries : List (Value × Value)}
    (hfree : run.CollisionFree name (.mapping entries)) {e : (Value × Value) × Nat}
    (he : e ∈ entries.zipIdx) :
    run.CollisionFree (Naming.childName name (.field e.1.1 e.2)) e.1.2 :=
  hfree.mono (List.map_subset TypeTree.shape fun _ hu => mem_made_of_entry he hu)

/-- What comes up is a node of a tree or a record that has been merged. -/
theorem forall_mem_made {shapes : List Shape} {P : TypeTree → Prop}
    (hnode : ∀ name v t, (∀ u ∈ run.made name v, u.shape ∈ shapes) → run.node name v = .ok t →
      ∀ u ∈ t.nodes, P u)
    (hgathered : ∀ name items elementKind trees,
      (∀ item ∈ items, ∀ u ∈ run.made (Naming.childName name (.element item)) item,
        u.shape ∈ shapes) →
      List.Forall₂ (fun item t => run.child name (.element item) item = .ok t) items trees →
      ∀ u ∈ gathered run.strategies elementKind trees, P u) :
    (∀ u ∈ run.made name v, u.shape ∈ shapes) → ∀ u ∈ run.made name v, P u := by
  -- An error has no nodes, so a failed call adds nothing.
  have hnodes : ∀ name v, (∀ u ∈ run.made name v, u.shape ∈ shapes) →
      ∀ u ∈ nodesOf (run.node name v), P u := by
    intro name v hmade u hu
    cases hresult : run.node name v with
    | error e =>
      rw [hresult] at hu
      exact absurd hu List.not_mem_nil
    | ok t =>
      rw [hresult] at hu
      exact hnode name v t hmade hresult u hu
  induction v generalizing name with
  | atom a => exact fun hmade => hnodes name _ hmade
  | sequence kind items ih =>
    intro hmade u hu
    have hitems : ∀ item ∈ items, ∀ u ∈ run.made (Naming.childName name (.element item)) item,
        u.shape ∈ shapes := fun item hitem u hu => hmade u (mem_made_of_item hitem hu)
    rw [made] at hu
    rcases List.mem_append.mp hu with hu | hu
    · exact hnodes name _ hmade u hu
    rcases List.mem_append.mp hu with hu | hu
    -- The merged elements are there only if all of the elements could be made.
    · rw [gatheredItems] at hu
      split at hu
      · next rule trees hget htrees =>
        split at hu
        · exact hgathered name items _ trees hitems (elementNodes_eq_ok_iff.mp htrees) u hu
        · exact absurd hu List.not_mem_nil
      · exact absurd hu List.not_mem_nil
    · rcases exists_of_mem_madeItems hu with ⟨item, hitem, hu⟩
      exact ih item hitem (hitems item hitem) u hu
  | mapping entries ih =>
    intro hmade u hu
    rw [made] at hu
    rcases List.mem_append.mp hu with hu | hu
    · exact hnodes name _ hmade u hu
    · rcases exists_of_mem_madeEntries hu with ⟨e, he, hu⟩
      exact (ih e.1 (List.fst_mem_of_mem_zipIdx he)).2
        (fun u hu => hmade u (mem_made_of_entry he hu)) u hu

/-- What comes up is coherent, and the shapes of its children come up, too. -/
theorem coherent_of_mem_made {u : TypeTree} (hu : u ∈ run.made name v) :
    Coherent run.strategies u ∧ ∀ c ∈ u.children, c.shape ∈ (run.made name v).map shape := by
  refine forall_mem_made (P := fun u => Coherent run.strategies u ∧
    ∀ c ∈ u.children, c.shape ∈ (run.made name v).map shape) ?_ ?_
    (fun _ => List.mem_map_of_mem) u hu
  · intro other w t hmade ht u hu
    refine ⟨(coherent_of_node ht).of_mem_nodes hu, fun c hc => hmade c (mem_made_of_node ht ?_)⟩
    exact mem_nodes_trans hu (mem_nodes_of_child hc (mem_nodes_self c))
  · intro parent items elementKind trees hmade htrees
    refine forall_mem_gathered (fun _ _ _ ha hb hm =>
      ⟨hm.coherent ha.1 hb.1, hm.child_mem ha.2 hb.2⟩) fun t ht => ?_
    rcases exists_mem_left_of_forall₂ htrees ht with ⟨item, hitem, hchild⟩
    have hnode := (child_eq_ok_iff.mp hchild).1
    refine ⟨coherent_of_node hnode, fun c hc => hmade item hitem c (mem_made_of_node hnode ?_)⟩
    exact mem_nodes_of_child hc (mem_nodes_self c)

variable {shapes : List Shape}

/-- An inferred tree is known once its heights are, as its children have come up. -/
theorem isKnown_of_heights (hmade : ∀ u ∈ run.made name v, u.shape ∈ shapes)
    (h : run.node name v = .ok t) (hheights : ∀ u ∈ t.nodes, u.height = u.shape.height) :
    IsKnown run.strategies shapes t :=
  ⟨coherent_of_node h, hheights, fun c hc =>
    hmade c (mem_made_of_node h (mem_nodes_of_child hc (mem_nodes_self c)))⟩

/-- Inferred trees are known, if what comes up in inference is listed and does not collide. -/
theorem isKnown_of_node (hfree : Shape.CollisionFree shapes)
    (hmade : ∀ u ∈ run.made name v, u.shape ∈ shapes) (h : run.node name v = .ok t) :
    IsKnown run.strategies shapes t := by
  refine node_induct (P := fun name v t => (∀ u ∈ run.made name v, u.shape ∈ shapes) →
    IsKnown run.strategies shapes t) ?_ ?_ ?_ v name t h hmade
  · intro name v type hget hmade
    refine isKnown_of_heights hmade (node_of_isNode (.scalar hget)) ?_
    refine forall_nodes_of_children ?_ fun c hc => absurd hc List.not_mem_nil
    rw [height, shape, Shape.scalar, Shape.height]
  · intro name kind items rule elementKind trees hget hkind hchildren htrees hmade
    have hnode := node_of_isNode (.sequence hget hkind hchildren)
    -- The elements are known before they are put together, and merging and renaming keep that.
    have harranged : ∀ e ∈ arrange run.strategies elementKind trees,
        IsKnown run.strategies shapes e := by
      refine isKnown_arrange hfree fun t ht => ?_
      rcases exists_mem_left_of_forall₂ htrees ht with ⟨item, hitem, htree⟩
      exact htree fun u hu => hmade u (mem_made_of_item hitem hu)
    refine isKnown_of_heights hmade hnode (forall_nodes_of_children ?_ fun e he =>
      (harranged e he).height_eq)
    rw [ofElements, height, shape, height_shapeOfElements,
      heightAbove_eq fun e he => (harranged e he).height_eq e (mem_nodes_self e)]
  -- A field has the tree that was made for some entry.
  · intro name entries children hget hfields hchildren hmade
    have hnode := node_of_isNode (.mapping hget hfields)
    have hknown : ∀ f ∈ distinctFields children, IsKnown run.strategies shapes f.2 := by
      intro f hf
      rcases (mem_distinctFields hf).2 with ⟨c, hc, heq⟩
      rcases exists_mem_left_of_forall₂ hchildren hc with ⟨e, he, htree⟩
      rw [← heq]
      exact htree fun u hu => hmade u (mem_made_of_entry he hu)
    refine isKnown_of_heights hmade hnode (forall_nodes_of_children ?_
      (List.forall_mem_map.mpr fun f hf => (hknown f hf).height_eq))
    rw [ofFields, height, shape, height_shapeOfFields, heightAbove_eq
      (List.forall_mem_map.mpr fun f hf => (hknown f hf).height_eq f.2 (mem_nodes_self f.2))]

/-- The nodes of an inferred tree are among what comes up. -/
theorem CollisionFree.nodes (hfree : run.CollisionFree name v) (h : run.node name v = .ok t) :
    Shape.CollisionFree (t.nodes.map TypeTree.shape) :=
  hfree.mono (List.map_subset TypeTree.shape fun _ hu => mem_made_of_node h hu)

/-- The height of every node of an inferred tree is that of its shape. -/
theorem CollisionFree.height_eq (hfree : run.CollisionFree name v) (h : run.node name v = .ok t)
    {u : TypeTree} (hu : u ∈ t.nodes) : u.height = u.shape.height :=
  (isKnown_of_node hfree (fun _ => List.mem_map_of_mem) h).height_eq u hu

/-- Whether a node of an inferred tree gets a declaration depends on its shape alone. -/
theorem CollisionFree.isAliased_eq (hfree : run.CollisionFree name v) (h : run.node name v = .ok t)
    {u : TypeTree} (hu : u ∈ t.nodes) :
    u.isAliased run.strategies = u.shape.isAliased run.strategies :=
  ((coherent_of_node h).of_mem_nodes hu).isAliased_eq_shape_isAliased (hfree.height_eq h hu)

end Inference

end TypeSketch
