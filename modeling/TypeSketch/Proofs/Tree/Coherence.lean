import TypeSketch.Proofs.Shape.Height
import TypeSketch.Proofs.Tree.Inferred
import TypeSketch.Proofs.Tree.Siblings

/-!
# Coherent Trees

Nodes keep their height and their shape, and operations on trees hand them on without
computing them again. A tree is coherent if each node keeps the shape that its children
give, and a height above theirs. Renaming changes neither, a merge keeps the greater of
two heights, and the shape of a merge is computed anew.

The greater height need not be the height of a merge: a field that both records have is
taken from the first one, and its type in the second may be of another height if digests
collide. So coherence does not say which height a node has. Where the height is that of the
shape, the declaration is a matter of the shape too.

Coherence also holds what a merge relies on: no key twice in a mapping, texts as keys
of a record, and a record in the syntax of classes only with keys that can name fields.

## Main definitions

* `MappingForm.Fits`: A form fits the keys of a mapping.
* `TypeTree.Coherent`: Nodes keep what their children allow.
* `TypeTree.kindForm`: The form of the shape of a sequence.
* `TypeTree.IsMadeLike`: Nodes of one kind with children that give one shape.

## Theorems

* `TypeTree.Coherent.isMadeLike`: Nodes of one shape.
* `TypeTree.Coherent.height_le_of_mem_nodes`: Heights shrink on the way down.
* `TypeTree.height_shapeOfFields`, `TypeTree.height_shapeOfElements`: The height of the shape of a
  node.
* `TypeTree.Coherent.isAliased_eq_shape_isAliased`: Declarations by shape.
* `TypeTree.Coherent.rename`, `TypeTree.IsMerge.coherent`, `TypeTree.coherent_arrange`: What
  keeps trees coherent.
* `Inference.coherent_of_node`: Inferred trees are coherent.
-/

namespace TypeSketch

/-- Whether a form fits the keys of a mapping. The keys of a record are texts, and all of
    them can name fields if it is written as a class. -/
def MappingForm.Fits (form : MappingForm) (keys : List Value) : Prop :=
  match form with
  | .record profile =>
    (∀ key ∈ keys, ∃ s, key = .str s) ∧
      (profile.functional = false → ∀ key ∈ keys, Naming.isIdentifier key.keyText = true)
  | .generic => True

theorem MappingForm.Fits.textKeys {α : Type} {profile : RecordProfile} {fields : List (Value × α)}
    (h : (MappingForm.record profile).Fits (fields.map (·.1))) : Value.TextKeys fields :=
  fun f hf => h.1 f.1 (List.mem_map_of_mem hf)

theorem MappingForm.Fits.mono {form : MappingForm} {keys others : List Value}
    (h : form.Fits others) (hsub : ∀ key ∈ keys, key ∈ others) : form.Fits keys := by
  cases form with
  | record profile =>
    exact ⟨fun key hkey => h.1 key (hsub key hkey),
      fun hfunctional key hkey => h.2 hfunctional key (hsub key hkey)⟩
  | generic => trivial

namespace TypeTree

/-- Each node keeps the shape that its children give, and a height above theirs. -/
inductive Coherent (s : Strategies) : TypeTree → Prop
  | scalar (name : String) (v : Value) (type : ScalarType) : Coherent s (.scalar name v type)
  | mapping {name : String} {v : Value} {form : MappingForm} {height : Nat} {shape : Shape}
    {fields : List (Value × TypeTree)} (children : ∀ f ∈ fields, Coherent s f.2)
    (distinct : Value.DistinctKeys fields) (fits : form.Fits (fields.map (·.1)))
    (height_le : heightAbove (fields.map (·.2)) ≤ height)
    (shape_eq : shape = shapeOfFields form fields) :
    Coherent s (.mapping name v form height shape fields)
  | sequence {name : String} {v : Value} {kind : ElementKind} {height : Nat} {shape : Shape}
    {elements : List TypeTree} (children : ∀ e ∈ elements, Coherent s e)
    (size_eq : ∀ size, kind = .tuple size → size = s.tupleSize)
    (height_le : heightAbove elements ≤ height)
    (shape_eq : shape = shapeOfElements kind elements) :
    Coherent s (.sequence name v kind height shape elements)

variable {s : Strategies}

theorem Coherent.child {t c : TypeTree} (hc : c ∈ t.children) (h : Coherent s t) : Coherent s c := by
  cases h with
  | scalar name v type => exact absurd hc List.not_mem_nil
  | mapping children _ _ _ _ =>
    rcases List.mem_map.mp hc with ⟨f, hf, rfl⟩
    exact children f hf
  | sequence children _ _ _ => exact children c hc

/-- All nodes of a coherent tree are coherent. -/
theorem Coherent.of_mem_nodes {t u : TypeTree} (h : Coherent s t) (hu : u ∈ t.nodes) :
    Coherent s u :=
  forall_mem_nodes (fun _ _ hc ht => ht.child hc) h u hu

section Kinds

/-- The form of the shape of a sequence. -/
def kindForm : ElementKind → Form
  | .list => .list
  | .set frozen => .set frozen
  | .iterator => .iterator
  | .tuple _ => .tuple

theorem shapeOfElements_eq (kind : ElementKind) (elements : List TypeTree) :
    shapeOfElements kind elements = .node (kindForm kind)
      (if kind = .tuple .fixed then elements.map shape else unorderedShapes elements) := by
  cases kind with
  | tuple size => cases size <;> rfl
  | list => rfl
  | set frozen => rfl
  | iterator => rfl

theorem form_shapeOfElements (kind : ElementKind) (elements : List TypeTree) :
    (shapeOfElements kind elements).form = kindForm kind := by
  rw [shapeOfElements_eq]
  rfl

theorem kindForm_ne_scalar (kind : ElementKind) (rendered : String) :
    kindForm kind ≠ .scalar rendered := by
  cases kind <;> exact Form.noConfusion

/-- Sequences of one form are of one kind, because all tuples go by one size. -/
theorem kind_eq_of_kindForm_eq {kind other : ElementKind}
    (hkind : ∀ size, kind = .tuple size → size = s.tupleSize)
    (hother : ∀ size, other = .tuple size → size = s.tupleSize)
    (h : kindForm other = kindForm kind) :
    other = kind := by
  cases kind <;> cases other <;> first | exact Form.noConfusion h | skip
  case list.list => rfl
  case set.set frozen frozen' => rw [Form.set.inj h]
  case iterator.iterator => rfl
  case tuple.tuple size size' => rw [hkind size rfl, hother size' rfl]

theorem shapeOfElements_congr (kind : ElementKind) {elements others : List TypeTree}
    (h : elements.map shape = others.map shape) :
    shapeOfElements kind elements = shapeOfElements kind others := by
  rw [shapeOfElements_eq, shapeOfElements_eq, unorderedShapes, unorderedShapes, h]

end Kinds

section Alike

theorem shapeOfFields_ne_shapeOfElements (form : MappingForm) (fields : List (Value × TypeTree))
    (kind : ElementKind) (elements : List TypeTree) :
    shapeOfFields form fields ≠ shapeOfElements kind elements := by
  intro h
  have hform := congrArg Shape.form h
  rw [form_shapeOfElements] at hform
  cases form <;> cases kind <;> exact Form.noConfusion hform

theorem shapeOfFields_ne_scalar (form : MappingForm) (fields : List (Value × TypeTree))
    (rendered : String) : shapeOfFields form fields ≠ .scalar rendered := by
  intro h
  have hform := congrArg Shape.form h
  cases form <;> exact Form.noConfusion hform

theorem shapeOfElements_ne_scalar (kind : ElementKind) (elements : List TypeTree)
    (rendered : String) : shapeOfElements kind elements ≠ .scalar rendered := by
  intro h
  have hform := congrArg Shape.form h
  rw [form_shapeOfElements] at hform
  exact kindForm_ne_scalar kind rendered hform

/-- Collections of one shape are of one kind, as all tuples have the size that the
    strategies say. -/
theorem kind_eq_of_shape_eq {kind kind' : ElementKind} {elements elements' : List TypeTree}
    (hsize : ∀ size, kind = .tuple size → size = s.tupleSize)
    (hsize' : ∀ size, kind' = .tuple size → size = s.tupleSize)
    (h : shapeOfElements kind elements = shapeOfElements kind' elements') : kind = kind' := by
  refine kind_eq_of_kindForm_eq hsize' hsize ?_
  rw [← form_shapeOfElements kind elements, h, form_shapeOfElements]

/-- Two nodes of one kind with children that give one shape. -/
inductive IsMadeLike : TypeTree → TypeTree → Prop
  | scalar {name name' : String} {v v' : Value} {type type' : ScalarType}
    (rendered_eq : type.rendered = type'.rendered) :
    IsMadeLike (.scalar name v type) (.scalar name' v' type')
  | record {name name' : String} {v v' : Value} {profile profile' : RecordProfile} {height height' : Nat}
    {shape shape' : Shape} {fields fields' : List (Value × TypeTree)}
    (shape_eq : shapeOfFields (.record profile) fields = shapeOfFields (.record profile') fields') :
    IsMadeLike (.mapping name v (.record profile) height shape fields)
      (.mapping name' v' (.record profile') height' shape' fields')
  | generic {name name' : String} {v v' : Value} {height height' : Nat} {shape shape' : Shape}
    {fields fields' : List (Value × TypeTree)}
    (shape_eq : shapeOfFields .generic fields = shapeOfFields .generic fields') :
    IsMadeLike (.mapping name v .generic height shape fields)
      (.mapping name' v' .generic height' shape' fields')
  | sequence {name name' : String} {v v' : Value} {kind : ElementKind} {height height' : Nat}
    {shape shape' : Shape} {elements elements' : List TypeTree}
    (shape_eq : shapeOfElements kind elements = shapeOfElements kind elements') :
    IsMadeLike (.sequence name v kind height shape elements)
      (.sequence name' v' kind height' shape' elements')

/-- The shape of a coherent node tells of which kind the node is. -/
theorem Coherent.isMadeLike {t u : TypeTree} (ht : Coherent s t) (hu : Coherent s u)
    (h : t.shape = u.shape) : IsMadeLike t u := by
  -- Each kind of node has a form of its own in the shape, so the two nodes are of one kind.
  cases ht with
  | scalar =>
    cases hu with
    | scalar => exact .scalar (Form.scalar.inj (Shape.node.inj h).1)
    | mapping _ _ _ _ hshape => exact absurd (h.trans hshape).symm (shapeOfFields_ne_scalar _ _ _)
    | sequence _ _ _ hshape => exact absurd (h.trans hshape).symm (shapeOfElements_ne_scalar _ _ _)
  | @mapping _ _ form _ _ _ _ _ _ _ hshape =>
    cases hu with
    | scalar => exact absurd (hshape.symm.trans h) (shapeOfFields_ne_scalar _ _ _)
    | sequence _ _ _ hshape' =>
      exact absurd (hshape.symm.trans (h.trans hshape')) (shapeOfFields_ne_shapeOfElements _ _ _ _)
    | @mapping _ _ form' _ _ _ _ _ _ _ hshape' =>
      have hsame := hshape.symm.trans (h.trans hshape')
      cases form <;> cases form'
      case record.record => exact .record hsame
      case generic.generic => exact .generic hsame
      -- The form says which fields are optional, or of which types the keys are.
      case record.generic => exact absurd (congrArg Shape.form hsame) Form.noConfusion
      case generic.record => exact absurd (congrArg Shape.form hsame) Form.noConfusion
  | @sequence _ _ kind _ _ _ _ hsize _ hshape =>
    cases hu with
    | scalar => exact absurd (hshape.symm.trans h) (shapeOfElements_ne_scalar _ _ _)
    | mapping _ _ _ _ hshape' =>
      exact absurd (hshape.symm.trans (h.trans hshape')).symm (shapeOfFields_ne_shapeOfElements _ _ _ _)
    | sequence _ hsize' _ hshape' =>
      have hsame := hshape.symm.trans (h.trans hshape')
      cases kind_eq_of_shape_eq hsize hsize' hsame
      exact .sequence hsame

end Alike

section Heights

theorem foldl_max_le_iff {heights : List Nat} {start n : Nat} :
    heights.foldl max start ≤ n ↔ start ≤ n ∧ ∀ h ∈ heights, h ≤ n := by
  induction heights generalizing start with
  | nil => simp only [List.foldl_nil, List.not_mem_nil, false_implies, implies_true, and_true]
  | cons first rest ih =>
    rw [List.foldl_cons, ih, Nat.max_le, List.forall_mem_cons, and_assoc]

theorem height_lt_heightAbove {c : TypeTree} {children : List TypeTree} (h : c ∈ children) :
    c.height < heightAbove children := by
  have hmax : (children.map height).foldl max 0 ≤ (children.map height).foldl max 0 := Nat.le_refl _
  have hle := (foldl_max_le_iff.mp hmax).2 c.height (List.mem_map_of_mem h)
  rw [heightAbove]
  omega

theorem Coherent.height_lt_of_child {t c : TypeTree} (h : Coherent s t) (hc : c ∈ t.children) :
    c.height < t.height := by
  cases h with
  | scalar name v type => exact absurd hc List.not_mem_nil
  | mapping _ _ _ height_le _ => exact Nat.lt_of_lt_of_le (height_lt_heightAbove hc) height_le
  | sequence _ _ height_le _ => exact Nat.lt_of_lt_of_le (height_lt_heightAbove hc) height_le

theorem Coherent.height_le_of_mem_nodes {t u : TypeTree} (h : Coherent s t) (hu : u ∈ t.nodes) :
    u.height ≤ t.height := by
  induction t using induct_children with
  | node t ih =>
    rcases mem_nodes.mp hu with rfl | hu
    · exact Nat.le_refl _
    · rcases mem_descendants.mp hu with ⟨c, hc, hu⟩
      have hbelow := ih c hc (h.child hc) hu
      have hchild := h.height_lt_of_child hc
      omega

theorem Coherent.height_pos_of_isAliased {t : TypeTree} (h : Coherent s t)
    (haliased : t.isAliased s = true) : 0 < t.height := by
  cases h with
  | scalar name v type => exact absurd haliased Bool.false_ne_true
  | mapping _ _ _ height_le _ =>
    rw [heightAbove] at height_le
    rw [height.eq_2]
    omega
  | sequence _ _ height_le _ =>
    rw [heightAbove] at height_le
    rw [height.eq_3]
    omega

theorem heightAbove_pos (children : List TypeTree) : 0 < heightAbove children := by
  rw [heightAbove]
  omega

theorem heightAbove_le {children : List TypeTree} {n : Nat} (hn : 0 < n)
    (h : ∀ c ∈ children, c.height < n) : heightAbove children ≤ n := by
  have hmax : (children.map height).foldl max 0 ≤ n - 1 := by
    refine foldl_max_le_iff.mpr ⟨Nat.zero_le _, List.forall_mem_map.mpr fun c hc => ?_⟩
    exact Nat.le_sub_one_of_lt (h c hc)
  rw [heightAbove]
  omega

/-- The height above children whose heights are those of their shapes. -/
theorem heightAbove_eq {children : List TypeTree} (h : ∀ c ∈ children, c.height = c.shape.height) :
    heightAbove children = 1 + Shape.maxHeight (children.map shape) := by
  -- Both heights are least upper bounds, and of the same heights.
  have hle : ∀ n, (children.map height).foldl max 0 ≤ n ↔
      Shape.maxHeight (children.map shape) ≤ n := by
    intro n
    rw [foldl_max_le_iff, Shape.maxHeight_le_iff]
    simp only [Nat.zero_le, true_and, List.forall_mem_map]
    exact forall_congr' fun c => forall_congr' fun hc => by rw [h c hc]
  rw [heightAbove]
  congr 1
  exact Nat.le_antisymm ((hle _).mpr (Nat.le_refl _)) ((hle _).mp (Nat.le_refl _))

theorem mem_sortedFields {profile : RecordProfile} {fields : List (Value × TypeTree)}
    {x : (String × Bool) × Shape} :
    x ∈ sortedFields profile fields ↔ ∃ f ∈ fields,
      ((f.1.keyText, !profile.optionalFields.contains f.1.keyText), f.2.shape) = x := by
  rw [sortedFields, Shape.mem_sortBy, List.mem_map]

theorem height_shapeOfFields (form : MappingForm) (fields : List (Value × TypeTree)) :
    (shapeOfFields form fields).height = 1 + Shape.maxHeight ((fields.map (·.2)).map shape) := by
  cases form with
  | record profile =>
    rw [shapeOfFields, Shape.height_node fun _ => Form.noConfusion]
    congr 1
    -- Sorting the fields changes none of them.
    refine Shape.maxHeight_eq_of_mem_iff fun shape => ?_
    simp only [List.mem_map, mem_sortedFields]
    constructor
    · rintro ⟨_, ⟨f, hf, rfl⟩, rfl⟩
      exact ⟨f.2, ⟨f, hf, rfl⟩, rfl⟩
    · rintro ⟨_, ⟨f, hf, rfl⟩, rfl⟩
      exact ⟨_, ⟨f, hf, rfl⟩, rfl⟩
  | generic =>
    rw [shapeOfFields, Shape.height_node fun _ => Form.noConfusion, unorderedShapes,
      Shape.maxHeight_canonical, Shape.maxHeight_absorbIntegers]

theorem height_shapeOfElements (kind : ElementKind) (elements : List TypeTree) :
    (shapeOfElements kind elements).height = 1 + Shape.maxHeight (elements.map shape) := by
  rw [shapeOfElements_eq, Shape.height_node (kindForm_ne_scalar kind)]
  split
  · rfl
  · rw [unorderedShapes, Shape.maxHeight_canonical, Shape.maxHeight_absorbIntegers]

/-- Whether a coherent node gets a declaration depends on its shape alone, if its height is that
    of the shape. -/
theorem Coherent.isAliased_eq_shape_isAliased {t : TypeTree} (h : Coherent s t)
    (hheight : t.height = t.shape.height) : t.isAliased s = t.shape.isAliased s := by
  -- Whether a node is declared goes by its form and its height, and the shape has both.
  cases h with
  | scalar name v type => rfl
  | @mapping name v form height shape fields _ _ _ _ hshape =>
    change height = shape.height at hheight
    rw [hshape] at hheight
    cases form with
    | record profile => rw [TypeTree.shape, hshape]; rfl
    | generic =>
      rw [isAliased, hheight, TypeTree.shape, hshape]
      rfl
  | @sequence name v kind height shape elements _ _ _ hshape =>
    change height = shape.height at hheight
    rw [hshape] at hheight
    rw [isAliased, hheight, TypeTree.shape, hshape, shapeOfElements_eq]
    cases kind <;> rfl

end Heights

section Renaming

theorem shapeOfFields_map {form : MappingForm} {fields : List (Value × TypeTree)}
    {g : TypeTree → TypeTree} (h : ∀ c, (g c).shape = c.shape) :
    shapeOfFields form (fields.map fun f => (f.1, g f.2)) = shapeOfFields form fields := by
  cases form with
  | record profile => simp only [shapeOfFields, sortedFields, List.map_map, Function.comp_def, h]
  | generic =>
    simp only [shapeOfFields, unorderedShapes, List.map_map, Function.comp_def, h]

theorem shapeOfElements_map {kind : ElementKind} {elements : List TypeTree}
    {g : TypeTree → TypeTree} (h : ∀ c, (g c).shape = c.shape) :
    shapeOfElements kind (elements.map g) = shapeOfElements kind elements := by
  refine shapeOfElements_congr kind ?_
  rw [List.map_map]
  exact List.map_congr_left fun c _ => h c

theorem heightAbove_map {children : List TypeTree} {g : TypeTree → TypeTree}
    (h : ∀ c, (g c).height = c.height) : heightAbove (children.map g) = heightAbove children := by
  simp only [heightAbove, List.map_map, Function.comp_def, h]

/-- A sequence with exchanged elements keeps height and shape if the elements do. -/
theorem ofElements_map {name : String} {v : Value} {kind : ElementKind} {elements : List TypeTree}
    {g : TypeTree → TypeTree} (hheight : ∀ c, (g c).height = c.height)
    (hshape : ∀ c, (g c).shape = c.shape) :
    ofElements name v kind (elements.map g) =
      .sequence name v kind (heightAbove elements) (shapeOfElements kind elements)
        (elements.map g) := by
  rw [ofElements, heightAbove_map hheight, shapeOfElements_map hshape]

theorem ofFields_map {name : String} {v : Value} {form : MappingForm}
    {fields : List (Value × TypeTree)} {g : TypeTree → TypeTree}
    (hheight : ∀ c, (g c).height = c.height) (hshape : ∀ c, (g c).shape = c.shape) :
    ofFields name v form (fields.map fun f => (f.1, g f.2)) =
      .mapping name v form (heightAbove (fields.map (·.2))) (shapeOfFields form fields)
        (fields.map fun f => (f.1, g f.2)) := by
  have hchildren : (fields.map fun f => (f.1, g f.2)).map (·.2) = (fields.map (·.2)).map g := by
    rw [List.map_map, List.map_map]
    rfl
  rw [ofFields, hchildren, heightAbove_map hheight, shapeOfFields_map hshape]

theorem Coherent.followRename {child : TypeTree} (h : ∀ newName, Coherent s (child.rename newName))
    (hchild : Coherent s child) (oldName newName : String) :
    Coherent s (followRename oldName newName child) := by
  rcases followRename_cases oldName newName child with heq | ⟨suffix, _, heq⟩
  · rw [heq]
    exact hchild
  · rw [heq]
    exact h (newName ++ suffix)

theorem Coherent.rename {t : TypeTree} (h : Coherent s t) (newName : String) :
    Coherent s (t.rename newName) := by
  -- A new name goes down to the children called after the old one, and leaves the rest as it is.
  induction h generalizing newName with
  | scalar name v type => exact Coherent.scalar newName v type
  | @mapping name v form height shape fields hchildren hdistinct hfits hheight hshape ih =>
    rw [TypeTree.rename, renameFields_eq_map]
    refine Coherent.mapping ?_ ?_ ?_ ?_ ?_
    · refine List.forall_mem_map.mpr fun f hf => ?_
      exact Coherent.followRename (ih f hf) (hchildren f hf) name newName
    · rw [Value.distinctKeys_iff_keys, List.map_map] at *
      exact hdistinct
    · rw [List.map_map]
      exact hfits
    -- Heights and shapes do not depend on names, so they are still those of the children.
    · have hchildren : (fields.map fun f => (f.1, TypeTree.followRename name newName f.2)).map (·.2) =
          (fields.map (·.2)).map (TypeTree.followRename name newName) := by
        rw [List.map_map, List.map_map]
        rfl
      rw [hchildren, heightAbove_map (height_followRename name newName)]
      exact hheight
    · rw [shapeOfFields_map (shape_followRename name newName), hshape]
  | @sequence name v kind height shape elements hchildren hsize hheight hshape ih =>
    rw [TypeTree.rename, renameElements_eq_map]
    refine Coherent.sequence ?_ hsize ?_ ?_
    · refine List.forall_mem_map.mpr fun e he => ?_
      exact Coherent.followRename (ih e he) (hchildren e he) name newName
    · rw [heightAbove_map (height_followRename name newName)]
      exact hheight
    · rw [shapeOfElements_map (shape_followRename name newName), hshape]

theorem Coherent.adopt {child : TypeTree} (h : Coherent s child) (oldParent newParent : String) :
    Coherent s (adopt oldParent newParent child) := by
  rw [adopt_eq]
  split
  · exact h
  · exact Coherent.followRename h.rename h oldParent newParent

end Renaming

section Merging

variable {ourName theirName : String} {left right : List (Value × TypeTree)}

theorem distinctKeys_mergeFields (hleft : Value.DistinctKeys left) (hright : Value.DistinctKeys right)
    (htexts : Value.TextKeys right) :
    Value.DistinctKeys (mergeFields ourName theirName left right) := by
  rw [mergeFields_eq_append hright, Value.DistinctKeys, List.pairwise_append]
  -- A field is new because no key of the first record is the same.
  refine ⟨hleft, ?_, ?_⟩
  · rw [newFields, List.pairwise_map]
    exact hright.filter _
  · intro f hf g hg
    rcases mem_newFields.mp hg with ⟨r, hr, hnone, rfl⟩
    rcases htexts r hr with ⟨text, htext⟩
    rw [htext, Value.entry?_str_eq_none_iff] at hnone
    rw [← Bool.not_eq_true, htext, Value.same_str_comm]
    exact hnone f hf

/-- The keys of a merge are keys of the two records. -/
theorem key_mem_of_mem_mergeFields (hright : Value.DistinctKeys right) {f : Value × TypeTree}
    (hf : f ∈ mergeFields ourName theirName left right) :
    f.1 ∈ left.map (·.1) ∨ f.1 ∈ right.map (·.1) := by
  rw [mergeFields_eq_append hright] at hf
  rcases List.mem_append.mp hf with hf | hf
  · exact Or.inl (List.mem_map_of_mem hf)
  · rcases mem_newFields.mp hf with ⟨g, hg, _, rfl⟩
    exact Or.inr (List.mem_map.mpr ⟨g, hg, rfl⟩)

theorem fits_mergeProfiles {ours theirs : RecordProfile} {ourNames theirNames : NameSet}
    (hright : Value.DistinctKeys right)
    (hours : (MappingForm.record ours).Fits (left.map (·.1)))
    (htheirs : (MappingForm.record theirs).Fits (right.map (·.1))) :
    (MappingForm.record (mergeProfiles ours theirs ourNames theirNames)).Fits
      ((mergeFields ourName theirName left right).map (·.1)) := by
  constructor
  · refine List.forall_mem_map.mpr fun f hf => ?_
    rcases key_mem_of_mem_mergeFields hright hf with hkey | hkey
    · exact hours.1 f.1 hkey
    · exact htheirs.1 f.1 hkey
  · intro hfunctional
    rw [mergeProfiles, Bool.or_eq_false_iff] at hfunctional
    refine List.forall_mem_map.mpr fun f hf => ?_
    rcases key_mem_of_mem_mergeFields hright hf with hkey | hkey
    · exact hours.2 hfunctional.1 f.1 hkey
    · exact htheirs.2 hfunctional.2 f.1 hkey

/-- Nothing in a merge is higher than both records. -/
theorem heightAbove_mergeFields :
    heightAbove ((mergeFields ourName theirName left right).map (·.2)) ≤
      max (heightAbove (left.map (·.2))) (heightAbove (right.map (·.2))) := by
  have hmerged : ∀ f ∈ mergeFields ourName theirName left right, f.2.height <
      max (heightAbove (left.map (·.2))) (heightAbove (right.map (·.2))) := by
    refine forall_mem_mergeFields (P := fun c => c.height < _) (fun f hf => ?_) fun g hg => ?_
    · exact Nat.lt_of_lt_of_le (height_lt_heightAbove (List.mem_map_of_mem hf)) (Nat.le_max_left _ _)
    · rw [height_adopt]
      exact Nat.lt_of_lt_of_le (height_lt_heightAbove (List.mem_map_of_mem hg)) (Nat.le_max_right _ _)
  exact heightAbove_le (Nat.lt_of_lt_of_le (heightAbove_pos _) (Nat.le_max_left _ _))
    (List.forall_mem_map.mpr hmerged)

/-- A merge of coherent records is coherent. -/
theorem IsMerge.coherent {similarity : Nat} {a b m : TypeTree} (h : IsMerge similarity a b m)
    (ha : Coherent s a) (hb : Coherent s b) : Coherent s m := by
  cases h with | @intro name theirName _ _ _ _ _ _ _ _ left right hsim =>
  rcases ha with _ | ⟨hchildren, hdistinct, hfits, hheight, hshape⟩
  rcases hb with _ | ⟨hchildren', hdistinct', hfits', hheight', hshape'⟩
  have hmerged : ∀ f ∈ mergeFields name theirName left right, Coherent s f.2 :=
    forall_mem_mergeFields hchildren fun g hg => (hchildren' g hg).adopt _ _
  refine Coherent.mapping hmerged (distinctKeys_mergeFields hdistinct hdistinct' hfits'.textKeys)
    (fits_mergeProfiles hdistinct' hfits hfits') ?_ rfl
  -- The greater height is above the fields of both records.
  have habove : heightAbove ((mergeFields name theirName left right).map (·.2)) ≤
      max (heightAbove (left.map (·.2))) (heightAbove (right.map (·.2))) := heightAbove_mergeFields
  omega

end Merging

theorem IsNumbered.coherent {t u : TypeTree} (h : IsNumbered s t u) (ht : Coherent s t) :
    Coherent s u := by
  rcases h with rfl | ⟨_, i, rfl⟩
  · exact ht
  · exact ht.rename _

/-- The elements are coherent once similar records are merged. -/
theorem coherent_gathered {kind : ElementKind} {trees : List TypeTree}
    (h : ∀ t ∈ trees, Coherent s t) : ∀ u ∈ gathered s kind trees, Coherent s u :=
  forall_mem_gathered (fun _ _ _ ha hb hm => hm.coherent ha hb) h

/-- The arranged elements of coherent ones are coherent. -/
theorem coherent_arrange {kind : ElementKind} {trees : List TypeTree}
    (h : ∀ t ∈ trees, Coherent s t) : ∀ u ∈ arrange s kind trees, Coherent s u :=
  forall_mem_arrange (fun _ _ _ ha hb hm => hm.coherent ha hb) (fun _ _ ht _ => ht.rename _) h

end TypeTree

namespace Inference

open TypeTree

theorem hasTextKeys_iff {entries : List (Value × Value)} :
    hasTextKeys entries = true ↔ Value.TextKeys entries := by
  simp only [hasTextKeys, List.all_eq_true, Option.isSome_iff_exists, Value.text?_eq_some_iff,
    Value.TextKeys]

/-- The form that inference chooses for a mapping fits its keys. -/
theorem fits_mappingForm (s : Strategies) (entries : List (Value × Value)) :
    (mappingForm s entries).Fits (entries.map (·.1)) := by
  rw [mappingForm]
  split
  · next h =>
    have htexts := hasTextKeys_iff.mp h.2
    refine ⟨List.forall_mem_map.mpr htexts, fun hfunctional => List.forall_mem_map.mpr fun e he => ?_⟩
    rcases htexts e he with ⟨text, htext⟩
    rw [List.any_eq_false] at hfunctional
    have := hfunctional e he
    simp only [htext, Bool.not_eq_true, Bool.not_eq_false'] at this
    rw [htext, Value.keyText_str]
    exact this
  · trivial

/-- A rule makes tuples of the size that the strategies say. -/
theorem size_of_elementKind? {rule : ContainerRule} {size : TupleSize} {kind : SequenceKind}
    {elementKind : ElementKind} (h : rule.elementKind? size kind = some elementKind) :
    ∀ z, elementKind = .tuple z → z = size := by
  intro z hz
  rw [hz] at h
  cases rule <;> cases kind <;> simp_all [ContainerRule.elementKind?]

/-- A sequence of coherent elements is coherent when they have been arranged. -/
theorem coherent_ofElements {s : Strategies} {rule : ContainerRule} {kind : SequenceKind}
    {elementKind : ElementKind} {trees : List TypeTree} (name : String) (v : Value)
    (hkind : rule.elementKind? s.tupleSize kind = some elementKind)
    (h : ∀ t ∈ trees, Coherent s t) :
    Coherent s (.ofElements name v elementKind (arrange s elementKind trees)) :=
  Coherent.sequence (coherent_arrange h) (size_of_elementKind? hkind) (Nat.le_refl _) rfl

/-- A mapping of coherent fields is coherent if they have the keys of its entries. -/
theorem coherent_ofFields {s : Strategies} {entries : List (Value × Value)}
    {children : List (Value × TypeTree)} (name : String) (v : Value)
    (hkeys : children.map (·.1) = entries.map (·.1)) (h : ∀ f ∈ children, Coherent s f.2) :
    Coherent s (.ofFields name v (mappingForm s entries) (distinctFields children)) := by
  refine Coherent.mapping ?_ distinctKeys_distinctFields ?_ (Nat.le_refl _) rfl
  · intro f hf
    rcases (mem_distinctFields hf).2 with ⟨c, hc, heq⟩
    rw [← heq]
    exact h c hc
  -- The form was chosen for all entries, and the fields have some of their keys.
  · refine MappingForm.Fits.mono (fits_mappingForm s entries) (List.forall_mem_map.mpr fun f hf => ?_)
    rcases (mem_distinctFields hf).1 with ⟨c, hc, heq⟩
    rw [← heq, ← hkeys]
    exact List.mem_map_of_mem hc

/-- Inferred trees are coherent. -/
theorem coherent_of_node {run : Inference} {name : String} {v : Value} {t : TypeTree}
    (h : run.node name v = .ok t) : Coherent run.strategies t := by
  refine node_induct (P := fun _ _ t => Coherent run.strategies t) ?_ ?_ ?_ v name t h
  · exact fun name v type _ => Coherent.scalar name v type
  · intro name kind items rule elementKind trees _ hkind _ htrees
    refine coherent_ofElements name _ hkind fun t ht => ?_
    rcases exists_mem_left_of_forall₂ htrees ht with ⟨_, _, hcoherent⟩
    exact hcoherent
  · intro name entries children _ hfields hchildren
    refine coherent_ofFields name _ (keys_of_isField hfields) fun f hf => ?_
    rcases exists_mem_left_of_forall₂ hchildren hf with ⟨_, _, hcoherent⟩
    exact hcoherent

/-- So are the trees of all items of a sequence. -/
theorem coherent_of_children {run : Inference} {name : String} {items : List Value}
    {trees : List TypeTree}
    (h : List.Forall₂ (fun item t => run.child name (.element item) item = .ok t) items trees) :
    ∀ t ∈ trees, Coherent run.strategies t := by
  intro t ht
  rcases exists_mem_left_of_forall₂ h ht with ⟨item, _, hchild⟩
  exact coherent_of_node (child_eq_ok_iff.mp hchild).1

end Inference

end TypeSketch
