import TypeSketch.Proofs.Acceptance.Inferred
import TypeSketch.Proofs.Render.Inlined
import TypeSketch.Proofs.Tree.Numbering

/-!
# Sets in Another Order

What becomes of a set when its items come in another order. The first item of each digest
stands for all of them, so another item may stand for them now; and numbers go by order, so
another shape may have a number. But as many digests share a name as before, and the same
names are given to them.

The items of one digest have to be of one type for that, so digests must not collide: if
another shape has the digest of `float`, the order decides which one of the two is kept, and
with it whether `int` is absorbed.

Merging is what else order can matter for. Three records, of which the first two are too
different to be merged, can become one record by way of the third if it is second, and
two records if it is last. So it is assumed that no two records of different digests among
the items can be merged.

An item that gets a declaration is written as its name. One that is written in full must
have nothing in it that gets a declaration, because the shape does not tell the names in it.

## Main definitions

* `Form.typeName`: What values of a form are called.
* `Inference.IsItem`: The trees of the items of a sequence.

## Theorems

* `Inference.IsItem.name_eq`: Items of one digest have one name, if they get one.
* `TypeTree.exists_name_disambiguate`: The same names are given in any order.
* `Inference.set_of_perm`: A set in another order.
-/

namespace TypeSketch

/-- What values whose trees are of this form are called, if they are containers. -/
def Form.typeName : Form → String
  | .scalar rendered => rendered
  | .record _ => ValueKind.mapping.typeName
  | .mapping _ => ValueKind.mapping.typeName
  | .list => SequenceKind.list.typeName
  | .set false => SequenceKind.set.typeName
  | .set true => SequenceKind.frozenset.typeName
  | .iterator => SequenceKind.iterator.typeName
  | .tuple => SequenceKind.tuple.typeName

namespace TypeTree

variable {s : Strategies} {trees others : List TypeTree}

/-- Which digests are called what among the elements that get a declaration. -/
def Named (s : Strategies) (trees : List TypeTree) (name : String) (digest : UInt64) : Prop :=
  ∃ t ∈ trees, t.isAliased s = true ∧ t.name = name ∧ t.digest = digest

/-- If the same digests are called the same, the same names are given, though perhaps to
    other digests. -/
theorem exists_name_disambiguate
    (hnamed : ∀ name digest, Named s trees name digest ↔ Named s others name digest)
    {e : TypeTree} (he : e ∈ disambiguate s trees) (haliased : e.isAliased s = true) :
    ∃ e' ∈ disambiguate s others, e'.isAliased s = true ∧ e'.name = e.name := by
  rcases exists_ledger s trees with ⟨table, hledger, hnumbered⟩
  rcases exists_ledger s others with ⟨table', hledger', hnumbered'⟩
  rcases exists_mem_left_of_forall₂ hnumbered he with ⟨t, ht, hte⟩
  have hta : t.isAliased s = true := by
    by_contra hplain
    rw [IsNumberedBy, if_neg hplain] at hte
    exact hplain (hte ▸ haliased)
  -- There are as many digests under the name in both tables, so the number is given in both.
  have hlength : (table t.name).length = (table' t.name).length := by
    refine List.Perm.length_eq ?_
    refine (List.perm_ext_iff_of_nodup (hledger.nodup _) (hledger'.nodup _)).mpr fun digest => ?_
    rw [hledger.mem_iff, hledger'.mem_iff]
    exact hnamed t.name digest
  have hplace : (table t.name).idxOf t.digest < (table' t.name).length := by
    rw [← hlength]
    exact List.idxOf_lt_length_of_mem ((hledger.mem_iff _ _).mpr ⟨t, ht, hta, rfl, rfl⟩)
  rcases (hledger'.mem_iff _ _).mp (List.getElem_mem hplace) with ⟨t', ht', hta', hname', hdigest'⟩
  rcases exists_mem_right_of_forall₂ hnumbered' ht' with ⟨e', he', hte'⟩
  rw [IsNumberedBy, if_pos hta] at hte
  rw [IsNumberedBy, if_pos hta', hname', hdigest', (hledger'.nodup _).idxOf_getElem _ hplace] at hte'
  -- The digest at this place of the other table belongs to a tree that has got the same number.
  refine ⟨e', he', ?_, ?_⟩
  · rw [hte', isAliased_withOrdinal, hta']
  · rw [hte', hte, name_withOrdinal, name_withOrdinal, hname']

/-- The first element of each digest stands for all. If digests do not collide, there is one of
    each shape in the end. -/
theorem mem_shapes_arranged (hfree : Shape.CollisionFree (trees.map shape)) {a : Shape} :
    a ∈ (disambiguate s (dropRepeated trees)).map shape ↔ a ∈ trees.map shape := by
  rw [map_shape_disambiguate]
  constructor
  · intro h
    rcases List.mem_map.mp h with ⟨t, ht, rfl⟩
    exact List.mem_map_of_mem (mem_of_mem_dropSeen ht)
  · intro h
    rcases List.mem_map.mp h with ⟨t, ht, rfl⟩
    rcases exists_mem_dropRepeated ht with ⟨u, hu, hdigest⟩
    have hshape : u.shape = t.shape :=
      hfree _ (List.mem_map_of_mem (mem_of_mem_dropSeen hu)) _ h hdigest
    rw [← hshape]
    exact List.mem_map_of_mem hu

/-- Elements in another order make up a sequence of the same shape, unless they are at fixed
    positions. -/
theorem shapeOfElements_arranged {kind : ElementKind} (hkind : kind ≠ .tuple .fixed)
    (hfree : Shape.CollisionFree (trees.map shape)) (hperm : others.Perm trees) :
    shapeOfElements kind (disambiguate s (dropRepeated others)) =
      shapeOfElements kind (disambiguate s (dropRepeated trees)) := by
  have hfree' : Shape.CollisionFree (others.map shape) :=
    hfree.mono fun a ha => (hperm.map shape).mem_iff.mp ha
  rw [shapeOfElements_eq, shapeOfElements_eq, if_neg hkind, if_neg hkind]
  refine congrArg (Shape.node _) (unorderedShapes_congr fun a => ?_)
  rw [mem_shapes_arranged hfree, mem_shapes_arranged hfree']
  exact (hperm.map shape).mem_iff

/-- Elements are only dropped and numbered if none can be merged into another. -/
theorem arrange_of_unmergeable {kind : ElementKind} (hkind : kind ≠ .tuple .fixed)
    (hmerge : ∀ x ∈ trees, ∀ y ∈ trees, x.digest ≠ y.digest → x.merge? s.similarity y = none) :
    arrange s kind trees = disambiguate s (dropRepeated trees) := by
  rw [arrange_of_ne_fixed hkind, mergeSimilar_eq_self (nodup_dropRepeated trees) fun x hx y hy =>
    hmerge x (mem_of_mem_dropSeen hx) y (mem_of_mem_dropSeen hy)]

/-- What is not numbered stays as it is. -/
theorem mem_disambiguate_of_not_isAliased {e : TypeTree} (haliased : e.isAliased s = false) :
    e ∈ disambiguate s trees ↔ e ∈ trees := by
  rcases exists_ledger s trees with ⟨table, _, hnumbered⟩
  -- Numbering goes by pairs, and in a pair it changes only what gets a declaration.
  constructor
  · intro he
    rcases exists_mem_left_of_forall₂ hnumbered he with ⟨t, ht, hte⟩
    rw [IsNumberedBy] at hte
    split at hte
    · next hta =>
      rw [hte, isAliased_withOrdinal, hta] at haliased
      contradiction
    · rwa [hte]
  · intro he
    rcases exists_mem_right_of_forall₂ hnumbered he with ⟨e', he', hte⟩
    rw [IsNumberedBy, haliased, if_neg Bool.false_ne_true] at hte
    rwa [← hte]

end TypeTree

namespace Inference

open TypeTree

variable {run : Inference} {types : List (String × ScalarType)} {name : String}

/-- The tree is that of an item of the sequence. -/
def IsItem (run : Inference) (name : String) (items : List Value) (x : TypeTree) : Prop :=
  ∃ item ∈ items, run.child name (.element item) item = .ok x

theorem IsItem.coherent {items : List Value} {x : TypeTree} (h : run.IsItem name items x) :
    Coherent run.strategies x := by
  rcases h with ⟨item, _, hitem⟩
  exact coherent_of_node (child_eq_ok_iff.mp hitem).1

section Items

variable (hregistry : run.registry = Registry.extended types)

include hregistry

theorem typeName_of_node {v : Value} {t : TypeTree} (h : run.node name v = .ok t)
    (haliased : t.isAliased run.strategies = true) : v.typeName = t.shape.form.typeName := by
  -- The word for a container can be read off the form, but that of a scalar may be anything.
  rcases isNode_of_node h with
    _ | @⟨kind, _, _, elementKind, _, hget, hkind, _⟩ | @⟨entries, _, _, _⟩
  · exact absurd haliased Bool.false_ne_true
  · have hsequence := sequenceKind_of_elementKind? (hregistry ▸ hget) hkind
    rw [ofElements, shape, shapeOfElements_eq]
    change kind.typeName = (kindForm elementKind).typeName
    rw [← hsequence]
    cases elementKind with
    | set frozen => cases frozen <;> rfl
    | list => rfl
    | iterator => rfl
    | tuple size => rfl
  · rw [ofFields, shape]
    cases mappingForm run.strategies entries <;> rfl

variable {kind : SequenceKind} {items : List Value} {trees others : List TypeTree}
  {x y : TypeTree}

/-- A set is no tuple. -/
theorem ne_fixed_of_set {rule : ContainerRule} {elementKind : ElementKind}
    (hkind : kind = .set ∨ kind = .frozenset)
    (hget : run.registry.get? (.sequence kind) = some (.container rule))
    (helement : rule.elementKind? run.strategies.tupleSize kind = some elementKind) :
    elementKind ≠ .tuple .fixed := by
  rintro rfl
  have hsequence := sequenceKind_of_elementKind? (hregistry ▸ hget) helement
  rcases hkind with rfl | rfl <;> contradiction

section Collisions

variable (hfree : run.CollisionFree name (.sequence kind items))

include hfree

omit hregistry in
/-- The digests of items do not collide. -/
theorem IsItem.shape_eq (hx : run.IsItem name items x) (hy : run.IsItem name items y)
    (h : x.digest = y.digest) : x.shape = y.shape := by
  have hmade : ∀ {z : TypeTree}, run.IsItem name items z →
      z.shape ∈ (run.made name (.sequence kind items)).map shape := by
    rintro z ⟨item, hitem, hz⟩
    exact List.mem_map_of_mem
      (mem_made_of_item hitem (mem_made_of_node (child_eq_ok_iff.mp hz).1 (mem_nodes_self z)))
  exact hfree _ (hmade hx) _ (hmade hy) h

omit hregistry in
/-- Items of one digest both get a declaration or neither one does. -/
theorem IsItem.isAliased_eq (hx : run.IsItem name items x) (hy : run.IsItem name items y)
    (h : x.digest = y.digest) : x.isAliased run.strategies = y.isAliased run.strategies := by
  have hshape : ∀ {z : TypeTree}, run.IsItem name items z →
      z.isAliased run.strategies = z.shape.isAliased run.strategies := by
    rintro z ⟨item, hitem, hz⟩
    exact (hfree.of_item hitem).isAliased_eq (child_eq_ok_iff.mp hz).1 (mem_nodes_self z)
  rw [hshape hx, hshape hy, hx.shape_eq hfree hy h]

omit hfree in
/-- Items of one shape have one name, if they get a declaration. -/
theorem IsItem.name_eq_of_shape_eq (hx : run.IsItem name items x) (hy : run.IsItem name items y)
    (hxa : x.isAliased run.strategies = true) (hya : y.isAliased run.strategies = true)
    (hshape : x.shape = y.shape) : x.name = y.name := by
  rcases hx with ⟨a, _, hx⟩
  rcases hy with ⟨b, _, hy⟩
  have hnx := (child_eq_ok_iff.mp hx).1
  have hny := (child_eq_ok_iff.mp hy).1
  have htype : a.typeName = b.typeName := by
    rw [typeName_of_node hregistry hnx hxa, typeName_of_node hregistry hny hya, hshape]
  rw [name_of_node hnx, name_of_node hny, Naming.childName, Naming.childName, ChildKey.suffix,
    ChildKey.suffix, ChildKey.describe, ChildKey.describe, htype]
  rfl

/-- Items of one digest have one name, if they get a declaration. -/
theorem IsItem.name_eq (hx : run.IsItem name items x) (hy : run.IsItem name items y)
    (haliased : x.isAliased run.strategies = true) (h : x.digest = y.digest) : x.name = y.name :=
  hx.name_eq_of_shape_eq hregistry hy haliased (by rw [← hx.isAliased_eq hfree hy h, haliased])
    (hx.shape_eq hfree hy h)

section Orders

variable (htrees : ∀ x ∈ trees, run.IsItem name items x)
  (hothers : ∀ x ∈ others, run.IsItem name items x)

include htrees hothers

/-- The same digests are called the same, whichever item stands for them. -/
theorem named_dropRepeated (hmem : ∀ x ∈ trees, x ∈ others) {n : String} {digest : UInt64}
    (h : Named run.strategies (dropRepeated trees) n digest) :
    Named run.strategies (dropRepeated others) n digest := by
  rcases h with ⟨t, ht, hta, rfl, rfl⟩
  have hmem' := mem_of_mem_dropSeen ht
  rcases exists_mem_dropRepeated (hmem t hmem') with ⟨u, hu, hdigest⟩
  have hitem := htrees t hmem'
  have hitem' := hothers u (mem_of_mem_dropSeen hu)
  refine ⟨u, hu, ?_, (hitem.name_eq hregistry hfree hitem' hta hdigest.symm).symm, hdigest⟩
  rw [hitem'.isAliased_eq hfree hitem hdigest, hta]

/-- What is written for an element in one order is written for one in another order. -/
theorem exists_text_arranged (hsame : ∀ x, x ∈ trees ↔ x ∈ others)
    (hinlined : ∀ x, run.IsItem name items x →
      x.isAliased run.strategies = true ∨ IsInlined run.strategies x)
    {e : TypeTree} (he : e ∈ disambiguate run.strategies (dropRepeated trees)) :
    ∃ e' ∈ disambiguate run.strategies (dropRepeated others),
      (e'.spellUse run.strategies).written.text = (e.spellUse run.strategies).written.text := by
  -- What is declared is written as its name, so the names are what has to be there again.
  by_cases haliased : e.isAliased run.strategies = true
  · have hnamed : ∀ n digest, Named run.strategies (dropRepeated trees) n digest ↔
        Named run.strategies (dropRepeated others) n digest := fun n digest =>
      ⟨named_dropRepeated hregistry hfree htrees hothers fun x => (hsame x).mp,
        named_dropRepeated hregistry hfree hothers htrees fun x => (hsame x).mpr⟩
    rcases exists_name_disambiguate hnamed he haliased with ⟨e', he', haliased', hname⟩
    refine ⟨e', he', ?_⟩
    rw [spellUse, spellUse, if_pos haliased, if_pos haliased', hname]
  · have hplain : e.isAliased run.strategies = false := Bool.not_eq_true _ ▸ haliased
    have hmem := mem_of_mem_dropSeen ((mem_disambiguate_of_not_isAliased hplain).mp he)
    rcases exists_mem_dropRepeated ((hsame e).mp hmem) with ⟨u, hu, hdigest⟩
    have hitem := htrees e hmem
    have hitem' := hothers u (mem_of_mem_dropSeen hu)
    have hplain' : u.isAliased run.strategies = false := by
      rw [hitem'.isAliased_eq hfree hitem hdigest, hplain]
    -- Both are written in full, so their shape says how.
    have hfull := (hinlined e hitem).resolve_left haliased
    have hfull' := (hinlined u hitem').resolve_left (by rw [hplain']; exact Bool.false_ne_true)
    refine ⟨u, (mem_disambiguate_of_not_isAliased hplain').mpr hu, ?_⟩
    rw [hfull.spellUse_eq, hfull'.spellUse_eq]
    exact text_spell_eq_of_shape_eq hitem.coherent hitem'.coherent hfull hfull'
      (hitem'.shape_eq hfree hitem hdigest)

/-- The union of the elements has one text in both orders. -/
theorem text_union_arranged (hsame : ∀ x, x ∈ trees ↔ x ∈ others)
    (hinlined : ∀ x, run.IsItem name items x →
      x.isAliased run.strategies = true ∨ IsInlined run.strategies x) :
    (Spelling.union (uses run.strategies
        (disambiguate run.strategies (dropRepeated others)))).written.text =
      (Spelling.union (uses run.strategies
        (disambiguate run.strategies (dropRepeated trees)))).written.text := by
  -- Each text on the one side is there on the other one, as both orders have the same trees.
  have htexts : ∀ text,
      (∃ e ∈ uses run.strategies (disambiguate run.strategies (dropRepeated others)),
        e.text = text) ↔
        ∃ e ∈ uses run.strategies (disambiguate run.strategies (dropRepeated trees)),
          e.text = text := by
    intro text
    simp only [mem_uses]
    constructor
    · rintro ⟨_, ⟨e, he, rfl⟩, rfl⟩
      rcases exists_text_arranged hregistry hfree hothers htrees (fun x => (hsame x).symm) hinlined
        he with ⟨e', he', htext⟩
      exact ⟨_, ⟨e', he', rfl⟩, htext⟩
    · rintro ⟨_, ⟨e, he, rfl⟩, rfl⟩
      rcases exists_text_arranged hregistry hfree htrees hothers hsame hinlined he with
        ⟨e', he', htext⟩
      exact ⟨_, ⟨e', he', rfl⟩, htext⟩
  refine Spelling.text_union_congr fun text => ?_
  rw [Spelling.HasText, Spelling.HasText, htexts, htexts]

end Orders

/-- A set in another order has a tree of the same shape, if digests do not collide and no two
    items of different digests can be merged. It is written the same, if in addition what is
    written in full has nothing in it that gets a declaration. -/
theorem set_of_perm {others : List Value} {t : TypeTree}
    (hkind : kind = .set ∨ kind = .frozenset) (hperm : items.Perm others)
    (hmerge : ∀ x y, run.IsItem name items x → run.IsItem name items y → x.digest ≠ y.digest →
      x.merge? run.strategies.similarity y = none)
    (h : run.infer name (.sequence kind items) = .ok t) :
    ∃ u, run.infer name (.sequence kind others) = .ok u ∧ u.shape = t.shape ∧
      ((∀ x, run.IsItem name items x → x.isAliased run.strategies = true ∨
        IsInlined run.strategies x) →
        (u.spell run.strategies).written.text = (t.spell run.strategies).written.text) := by
  rcases infer_eq_ok_iff.mp h with ⟨hname, hnode⟩
  rcases isNode_of_node hnode with
    ⟨hscalar⟩ | @⟨_, _, rule, elementKind, trees, hget, helement, hchildren⟩
  -- A set is registered as a container from the start, and it cannot be registered anew.
  · change run.registry.get? (.sequence kind) = _ at hscalar
    rw [hregistry, Registry.get?_extended_of_container fun _ => ValueKind.noConfusion] at hscalar
    have hrule : Registry.standard.get? (.sequence kind) = some (.container .set) := by
      rcases hkind with rfl | rfl <;> rfl
    rw [hrule] at hscalar
    exact Specialization.noConfusion (Option.some.inj hscalar)
  · have hunordered := ne_fixed_of_set hregistry hkind hget helement
    -- The trees come in the order of the items.
    rcases List.perm_comp_forall₂ hperm.symm hchildren with ⟨trees', hchildren', hperm'⟩
    have hsame : ∀ x, x ∈ trees ↔ x ∈ trees' := fun x => hperm'.symm.mem_iff
    have htrees : ∀ x ∈ trees, run.IsItem name items x :=
      fun x hx => exists_mem_left_of_forall₂ hchildren hx
    have htrees' : ∀ x ∈ trees', run.IsItem name items x :=
      fun x hx => htrees x ((hsame x).mpr hx)
    have harrange : ∀ ts : List TypeTree, (∀ x ∈ ts, run.IsItem name items x) →
        arrange run.strategies elementKind ts = disambiguate run.strategies (dropRepeated ts) :=
      fun ts hts => arrange_of_unmergeable hunordered fun x hx y hy =>
        hmerge x y (hts x hx) (hts y hy)
    have hdigests : Shape.CollisionFree (trees.map shape) := by
      refine List.forall_mem_map.mpr fun x hx => List.forall_mem_map.mpr fun y hy => ?_
      exact (htrees x hx).shape_eq hfree (htrees y hy)
    have hnode' := node_of_isNode (.sequence hget helement hchildren')
    refine ⟨_, infer_eq_ok_iff.mpr ⟨hname, hnode'⟩, ?_, fun hinlined => ?_⟩
    · rw [ofElements, ofElements, shape, shape, harrange _ htrees, harrange _ htrees']
      exact shapeOfElements_arranged hunordered hdigests hperm'
    · rw [ofElements, ofElements, spell, spell, spellElementUses_eq_map, spellElementUses_eq_map,
        harrange _ htrees, harrange _ htrees']
      refine text_spellSequence_congr elementKind (fun hfixed => absurd hfixed hunordered) fun _ => ?_
      exact text_union_arranged hregistry hfree htrees htrees' hsame hinlined

end Collisions

end Items

/-- Only records can be merged, and only mappings become records. -/
theorem IsItem.merge?_eq_none {items : List Value}
    (hitems : ∀ item ∈ items, ∀ entries, item ≠ .mapping entries)
    {x y : TypeTree} (hx : run.IsItem name items x) (similarity : Nat) :
    x.merge? similarity y = none := by
  rcases hx with ⟨item, hitem, hx⟩
  rcases isNode_of_node (child_eq_ok_iff.mp hx).1 with _ | _ | _
  · rfl
  · rfl
  · exact absurd rfl (hitems _ hitem _)

/-- Where all containers get a declaration, only scalars are written in full. -/
theorem IsItem.isAliased_or_isInlined {items : List Value} {x : TypeTree}
    (hx : run.IsItem name items x)
    (hheight : run.strategies.aliasHeight ≤ 1) :
    x.isAliased run.strategies = true ∨ IsInlined run.strategies x := by
  have habove : ∀ children : List TypeTree, run.strategies.aliasHeight ≤ heightAbove children :=
    fun children => Nat.le_trans hheight (Nat.le_add_right 1 _)
  rcases hx.coherent with
    ⟨_, _, _⟩ | @⟨_, _, form, _, _, _, _, _, _, hle, _⟩ | @⟨_, _, _, _, _, _, _, _, hle, _⟩
  · exact Or.inr fun u hu => by rw [List.mem_singleton.mp hu]; rfl
  · cases form with
    | record profile => exact Or.inl rfl
    | generic => exact Or.inl (decide_eq_true (Nat.le_trans (habove _) hle))
  · exact Or.inl (decide_eq_true (Nat.le_trans (habove _) hle))

/-- The tuples of a set are numbered by their order. -/
theorem set_of_perm_tuples :
    ∃ t u, infer { registry := Registry.extended [] } "E"
        (.sequence .set [.sequence .tuple [.int 1], .int 2, .sequence .tuple [.str "a"]]) = .ok t ∧
      infer { registry := Registry.extended [] } "E"
        (.sequence .set [.sequence .tuple [.str "a"], .sequence .tuple [.int 1], .int 2]) = .ok u ∧
      u.shape = t.shape ∧ (u.spell {}).written.text = (t.spell {}).written.text := by
  have hok : (infer { registry := Registry.extended [] } "E"
      (.sequence .set [.sequence .tuple [.int 1], .int 2, .sequence .tuple [.str "a"]])).isOk =
        true := by
    decide +kernel
  have hitems : ∀ item ∈
      ([.sequence .tuple [.int 1], .int 2, .sequence .tuple [.str "a"]] : List Value),
      ∀ entries, item ≠ .mapping entries := by
    simp [Value.int]
  cases hinfer : infer { registry := Registry.extended [] } "E"
      (.sequence .set [.sequence .tuple [.int 1], .int 2, .sequence .tuple [.str "a"]]) with
  | error e =>
    rw [hinfer] at hok
    contradiction
  | ok t =>
    have hperm : [Value.sequence .tuple [.int 1], .int 2, .sequence .tuple [.str "a"]].Perm
        [.sequence .tuple [.str "a"], .sequence .tuple [.int 1], .int 2] :=
      @List.perm_append_comm _ [_, _] [_]
    rcases @set_of_perm _ [] "E" rfl _ _ (by decide +kernel) _ t (Or.inl rfl) hperm
      (fun x y hx _ _ => hx.merge?_eq_none hitems _) hinfer with ⟨u, hu, hshape, htext⟩
    exact ⟨t, u, rfl, hu, hshape, htext fun x hx => hx.isAliased_or_isInlined (Nat.le_refl 1)⟩

/-- The record with the number one under each of the keys. -/
def ones (keys : List String) : Value :=
  .mapping (keys.map fun key => (.str key, .int 1))

/-- Three records become one in one order and two in another. -/
theorem set_of_perm_records :
    [ones ["a"], ones ["a", "b"], ones ["b"]].Perm [ones ["a"], ones ["b"], ones ["a", "b"]] ∧
    ∃ t u, infer { registry := Registry.extended [] } "E"
        (.sequence .set [ones ["a"], ones ["a", "b"], ones ["b"]]) = .ok t ∧
      infer { registry := Registry.extended [] } "E"
        (.sequence .set [ones ["a"], ones ["b"], ones ["a", "b"]]) = .ok u ∧
      t.shape.digest ≠ u.shape.digest :=
  ⟨.cons _ (.swap _ _ _), _, _, rfl, rfl, by decide +kernel⟩

end Inference

end TypeSketch
