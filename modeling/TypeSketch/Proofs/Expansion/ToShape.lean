import Mathlib.Data.List.Nodup
import TypeSketch.Proofs.Expansion.OfShape
import TypeSketch.Proofs.Shape.Canonical

/-!
# Types Determine Shapes

The way back from the type that a node stands for to its shape, and so to its digest. Both
forget names and examples, the order of fields and of the members of a union, and integers
that are absorbed by `float`. They differ in one thing only: the keys of a generic mapping.
The type absorbs `int` among the types of keys as it does among members, and the shape lists
all of them.

So two nodes of one type have one shape if wherever two generic mappings of one type occur in
them, the types of keys are the same. This is so if no mapping has keys of both types.

The induction is on the first of two coherent trees. The types of the children are the same
in pairs, so the shapes of the children are, and the shape of a node is a function of those.

## Main definitions

* `TypeTree.keyTypes`: The types of the keys of a generic mapping.
* `TypeTree.KeysAgree`: Mappings of one type have keys of the same types.

## Theorems

* `TypeTree.keysAgree_of_unmixed`: Where no mapping mixes `int` and `float`.
* `TypeTree.unorderedShapes_eq_of_sameSets`: Members of unions.
* `TypeTree.sortedFields_eq_of_mem_iff`: Fields of records.
* `TypeTree.Coherent.shape_eq_of_same`: Nodes of one type have one shape.
-/

namespace TypeSketch

namespace NameSet

/-- Without `int` or without `float` nothing is absorbed. -/
theorem absorbIntegers_eq_self {names : NameSet} (h : ¬("int" ∈ names ∧ "float" ∈ names)) :
    names.absorbIntegers = names := by
  rw [absorbIntegers]
  split
  · next hfloat =>
    refine ext_mem fun name => ?_
    change name ∈ names.names.filter (· ≠ "int") ↔ name ∈ names.names
    rw [List.mem_filter, decide_eq_true_eq, and_iff_left_iff_imp]
    rintro hmem rfl
    exact h ⟨hmem, contains_iff.mp hfloat⟩
  · rfl

end NameSet

namespace TypeTree

variable {s : Strategies} {t u : TypeTree}

section Keys

/-- The types of the keys of a generic mapping. Other nodes have none. -/
def keyTypes : TypeTree → NameSet
  | mapping _ _ .generic _ _ fields => NameSet.ofList (fields.map (·.1.typeName))
  | _ => ∅

/-- Nodes of one type have keys of the same types, also where `float` would absorb `int`. -/
def KeysAgree (nodes : List TypeTree) : Prop :=
  ∀ a ∈ nodes, ∀ b ∈ nodes, a.expandedType = b.expandedType → a.keyTypes = b.keyTypes

instance (nodes : List TypeTree) : Decidable (KeysAgree nodes) :=
  inferInstanceAs (Decidable (∀ a ∈ nodes, ∀ b ∈ nodes, _ → _))

theorem KeysAgree.mono {nodes others : List TypeTree} (h : KeysAgree others)
    (hsub : ∀ a ∈ nodes, a ∈ others) : KeysAgree nodes :=
  fun a ha b hb => h a (hsub a ha) b (hsub b hb)

theorem KeysAgree.children {c d : TypeTree} (h : KeysAgree (t.nodes ++ u.nodes))
    (hc : c ∈ t.children) (hd : d ∈ u.children) : KeysAgree (c.nodes ++ d.nodes) := by
  refine h.mono fun a ha => ?_
  rcases List.mem_append.mp ha with ha | ha
  · exact List.mem_append_left _ (mem_nodes_of_child hc ha)
  · exact List.mem_append_right _ (mem_nodes_of_child hd ha)

/-- The head of a type tells the types of keys up to absorption. -/
theorem absorbIntegers_keyTypes_eq (h : t.expand.head = u.expand.head) :
    t.keyTypes.absorbIntegers = u.keyTypes.absorbIntegers := by
  have hhead : ∀ t : TypeTree, t.keyTypes.absorbIntegers =
      match t.expand.head with
      | .mapping keyTypes => keyTypes
      | _ => ∅ := by
    intro t
    cases t with
    | scalar name v type => rfl
    | sequence name v kind height shape elements => rfl
    | mapping name v form height shape fields => cases form <;> rfl
  rw [hhead t, hhead u, h]

/-- Keys agree where no mapping has keys of both types of numbers. -/
theorem keysAgree_of_unmixed {nodes : List TypeTree}
    (h : ∀ a ∈ nodes, ¬("int" ∈ a.keyTypes ∧ "float" ∈ a.keyTypes)) : KeysAgree nodes := by
  intro a ha b hb htype
  have hkeys := absorbIntegers_keyTypes_eq (Expansion.head_eq_of_same (expandedType_eq_iff.mp htype))
  rwa [NameSet.absorbIntegers_eq_self (h a ha), NameSet.absorbIntegers_eq_self (h b hb)] at hkeys

end Keys

section Members

theorem Coherent.isScalarNamed_expand_eq (h : Coherent s t) (name : String) :
    t.expand.isScalarNamed name = t.shape.isScalarNamed name := by
  rw [Expansion.isScalarNamed_eq_of_same h.same_expand, Shape.isScalarNamed_expand]

/-- A child that is a member of a union is one whose shape is kept. -/
theorem mem_absorbIntegers_iff {trees : List TypeTree} (h : ∀ c ∈ trees, Coherent s c) {c : TypeTree}
    (hc : c ∈ trees) :
    c.shape ∈ Shape.absorbIntegers (trees.map shape) ↔
      c.expand ∈ Expansion.absorbIntegers (trees.map expand) := by
  -- Both absorb `int` for the sake of a `float`, so they have to find one in the same lists.
  have hfloat : (∃ e ∈ trees.map expand, e.isScalarNamed "float" = true) ↔
      ∃ part ∈ trees.map shape, part.isScalarNamed "float" = true := by
    constructor
    · rintro ⟨_, hmem, hname⟩
      rcases List.mem_map.mp hmem with ⟨d, hd, rfl⟩
      exact ⟨_, List.mem_map_of_mem hd, (h d hd).isScalarNamed_expand_eq _ ▸ hname⟩
    · rintro ⟨_, hmem, hname⟩
      rcases List.mem_map.mp hmem with ⟨d, hd, rfl⟩
      exact ⟨_, List.mem_map_of_mem hd, (h d hd).isScalarNamed_expand_eq _ ▸ hname⟩
  rw [Shape.mem_absorbIntegers, Expansion.mem_absorbIntegers, hfloat,
    (h c hc).isScalarNamed_expand_eq, and_iff_right (List.mem_map_of_mem hc),
    and_iff_right (List.mem_map_of_mem hc)]

/-- Unions of the same members are made of the same shapes, if members of one type have one
    shape. -/
theorem unorderedShapes_eq_of_sameSets {trees others : List TypeTree}
    (ht : ∀ c ∈ trees, Coherent s c) (ho : ∀ d ∈ others, Coherent s d)
    (hshape : ∀ c ∈ trees, ∀ d ∈ others, c.expand.same d.expand = true → c.shape = d.shape)
    (h : Expansion.SameSets (Expansion.absorbIntegers (trees.map expand))
      (Expansion.absorbIntegers (others.map expand))) :
    unorderedShapes trees = unorderedShapes others := by
  -- Shapes without an order are the same as soon as they have the same members.
  refine Shape.canonical_eq_iff.mpr fun part => ⟨fun hpart => ?_, fun hpart => ?_⟩
  · rcases List.mem_map.mp (Shape.mem_absorbIntegers.mp hpart).1 with ⟨c, hc, rfl⟩
    rcases h.1 _ ((mem_absorbIntegers_iff ht hc).mp hpart) with ⟨e, he, hsame⟩
    rcases List.mem_map.mp (Expansion.mem_absorbIntegers.mp he).1 with ⟨d, hd, rfl⟩
    rw [hshape c hc d hd hsame]
    exact (mem_absorbIntegers_iff ho hd).mpr he
  · rcases List.mem_map.mp (Shape.mem_absorbIntegers.mp hpart).1 with ⟨d, hd, rfl⟩
    rcases h.2 _ ((mem_absorbIntegers_iff ho hd).mp hpart) with ⟨e, he, hsame⟩
    rcases List.mem_map.mp (Expansion.mem_absorbIntegers.mp he).1 with ⟨c, hc, rfl⟩
    rw [← hshape c hc d hd hsame]
    exact (mem_absorbIntegers_iff ht hc).mpr he

/-- Types with the same members of a union. -/
theorem sameSets_of_same_members {head head' : Expansion.Head} {types others : List Expansion}
    (h : Expansion.same (.node head (Expansion.members types))
      (.node head' (Expansion.members others)) = true) :
    Expansion.SameSets (Expansion.absorbIntegers types) (Expansion.absorbIntegers others) := by
  rcases Expansion.same_node_iff.mp h with ⟨_, hleft, hright⟩
  constructor
  · intro e he
    rcases hleft (.member, e) (List.mem_map_of_mem he) with ⟨q, hq, _, hsame⟩
    rcases List.mem_map.mp hq with ⟨e', he', rfl⟩
    exact ⟨e', he', hsame⟩
  · intro e' he'
    rcases hright (.member, e') (List.mem_map_of_mem he') with ⟨p, hp, _, hsame⟩
    rcases List.mem_map.mp hp with ⟨e, he, rfl⟩
    exact ⟨e, he, hsame⟩

end Members

section Positions

theorem mem_positions {types : List Expansion} {p : Expansion.Role × Expansion} :
    p ∈ Expansion.positions types ↔ ∃ i e, types[i]? = some e ∧ p = (.position i, e) := by
  rw [Expansion.positions, List.mem_map]
  constructor
  · rintro ⟨⟨e, i⟩, hmem, rfl⟩
    exact ⟨i, e, List.mem_zipIdx_iff_getElem?.mp hmem, rfl⟩
  · rintro ⟨i, e, hget, rfl⟩
    exact ⟨(e, i), List.mem_zipIdx_iff_getElem?.mpr hget, rfl⟩

/-- Where each position of one list has its match in the other, the lists match item by
    item, so shapes that follow types are the same. -/
theorem map_shape_eq_of_positions {trees others : List TypeTree}
    (hshape : ∀ c ∈ trees, ∀ d ∈ others, c.expand.same d.expand = true → c.shape = d.shape)
    (hleft : ∀ p ∈ Expansion.positions (trees.map expand),
      ∃ q ∈ Expansion.positions (others.map expand), p.1 = q.1 ∧ Expansion.same p.2 q.2 = true)
    (hright : ∀ q ∈ Expansion.positions (others.map expand),
      ∃ p ∈ Expansion.positions (trees.map expand), p.1 = q.1 ∧ Expansion.same p.2 q.2 = true) :
    trees.map shape = others.map shape := by
  refine List.ext_getElem? fun i => ?_
  rw [List.getElem?_map, List.getElem?_map]
  cases hc : trees[i]? with
  | some c =>
    have hp := mem_positions.mpr ⟨i, c.expand, by rw [List.getElem?_map, hc]; rfl, rfl⟩
    rcases hleft _ hp with ⟨q, hq, hrole, hsame⟩
    rcases mem_positions.mp hq with ⟨j, e, hget, rfl⟩
    rw [← Expansion.Role.position.inj hrole, List.getElem?_map] at hget
    rcases Option.map_eq_some_iff.mp hget with ⟨d, hd, rfl⟩
    rw [hd, Option.map_some, Option.map_some,
      hshape c (List.mem_of_getElem? hc) d (List.mem_of_getElem? hd) hsame]
  | none =>
    cases hd : others[i]? with
    | none => rfl
    | some d =>
      -- The other list cannot be longer.
      have hq := mem_positions.mpr ⟨i, d.expand, by rw [List.getElem?_map, hd]; rfl, rfl⟩
      rcases hright _ hq with ⟨p, hp, hrole, _⟩
      rcases mem_positions.mp hp with ⟨j, e, hget, rfl⟩
      rw [Expansion.Role.position.inj hrole, List.getElem?_map, hc] at hget
      contradiction

end Positions

section Fields

/-- The fields of a record in ascending order of their names. -/
theorem ascending_sortedFields (profile : RecordProfile) (fields : List (Value × TypeTree)) :
    (sortedFields profile fields).Pairwise fun a b => a.1.1 ≤ b.1.1 := by
  have hsorted := @Shape.pairwise_sortBy _
    (fun a b : (String × Bool) × Shape => decide (a.1.1 ≤ b.1.1))
    (fun a b c hab hbc => by
      rw [decide_eq_true_eq] at *
      exact String.le_trans hab hbc)
    (fun a b => by
      rw [Bool.or_eq_true, decide_eq_true_eq, decide_eq_true_eq]
      exact String.le_total a.1.1 b.1.1)
    (fields.map fun f =>
      ((f.1.keyText, !profile.optionalFields.contains f.1.keyText), f.2.shape))
  exact hsorted.imp fun hle => of_decide_eq_true hle

theorem perm_sortedFields (profile : RecordProfile) (fields : List (Value × TypeTree)) :
    (sortedFields profile fields).Perm (fields.map fun f =>
      ((f.1.keyText, !profile.optionalFields.contains f.1.keyText), f.2.shape)) :=
  Shape.perm_sortBy _ _

/-- No two fields of a record have one name. -/
theorem nodup_names_sortedFields {profile : RecordProfile} {fields : List (Value × TypeTree)}
    (hdistinct : Value.DistinctKeys fields) (htexts : Value.TextKeys fields) :
    ((sortedFields profile fields).map (·.1.1)).Nodup := by
  refine ((perm_sortedFields profile fields).map (·.1.1)).nodup_iff.mpr ?_
  rw [List.map_map]
  exact Value.nodup_keyTexts hdistinct htexts

/-- Rows in ascending order of their names are determined by what is among them. -/
theorem rows_eq_of_mem_iff {α : Type} {rows others : List ((String × Bool) × α)}
    (hsorted : rows.Pairwise fun a b => a.1.1 ≤ b.1.1)
    (hsorted' : others.Pairwise fun a b => a.1.1 ≤ b.1.1) (hnodup : (rows.map (·.1.1)).Nodup)
    (hnodup' : (others.map (·.1.1)).Nodup) (h : ∀ row, row ∈ rows ↔ row ∈ others) :
    rows = others := by
  have hperm : rows.Perm others :=
    (List.perm_ext_iff_of_nodup (List.Nodup.of_map _ hnodup) (List.Nodup.of_map _ hnodup')).mpr h
  -- Names are different, so each of two neighbours has its only place.
  refine hperm.eq_of_pairwise (fun a b ha hb hab hba => ?_) hsorted hsorted'
  exact List.inj_on_of_nodup_map hnodup ha ((h b).mpr hb) (String.le_antisymm hab hba)

/-- The sorted fields of a record are determined by what is among them. -/
theorem sortedFields_eq_of_mem_iff {profile other : RecordProfile}
    {fields others : List (Value × TypeTree)}
    (hnodup : ((sortedFields profile fields).map (·.1.1)).Nodup)
    (hnodup' : ((sortedFields other others).map (·.1.1)).Nodup)
    (h : ∀ x, x ∈ sortedFields profile fields ↔ x ∈ sortedFields other others) :
    sortedFields profile fields = sortedFields other others :=
  rows_eq_of_mem_iff (ascending_sortedFields profile fields) (ascending_sortedFields other others)
    hnodup hnodup' h

/-- Records of one type have one shape, if fields of one type have. -/
theorem shapeOfFields_eq_of_same {profile other : RecordProfile}
    {fields others : List (Value × TypeTree)}
    (hfields : Value.DistinctKeys fields ∧ Value.TextKeys fields)
    (hothers : Value.DistinctKeys others ∧ Value.TextKeys others)
    (hshape : ∀ f ∈ fields, ∀ g ∈ others, f.2.expand.same g.2.expand = true → f.2.shape = g.2.shape)
    (h : Expansion.same
      (.record (fields.map fun f =>
        ((f.1.keyText, !profile.optionalFields.contains f.1.keyText), f.2.expand)))
      (.record (others.map fun g =>
        ((g.1.keyText, !other.optionalFields.contains g.1.keyText), g.2.expand))) = true) :
    shapeOfFields (.record profile) fields = shapeOfFields (.record other) others := by
  rcases Expansion.same_node_iff.mp h with ⟨_, hleft, hright⟩
  have hsorted : sortedFields profile fields = sortedFields other others := by
    refine sortedFields_eq_of_mem_iff (nodup_names_sortedFields hfields.1 hfields.2)
      (nodup_names_sortedFields hothers.1 hothers.2) fun x => ?_
    rw [mem_sortedFields, mem_sortedFields]
    -- A part with the role of a field is a field of that name on the other side, required or not as
    -- here.
    constructor
    · rintro ⟨f, hf, rfl⟩
      rcases hleft _ (List.mem_map_of_mem (List.mem_map_of_mem hf)) with ⟨q, hq, hrole, hsame⟩
      rcases List.mem_map.mp hq with ⟨_, hmem, rfl⟩
      rcases List.mem_map.mp hmem with ⟨g, hg, rfl⟩
      rcases Expansion.Role.field.inj hrole with ⟨hname, hrequired⟩
      exact ⟨g, hg, Prod.ext (Prod.ext hname hrequired).symm (hshape f hf g hg hsame).symm⟩
    · rintro ⟨g, hg, rfl⟩
      rcases hright _ (List.mem_map_of_mem (List.mem_map_of_mem hg)) with ⟨p, hp, hrole, hsame⟩
      rcases List.mem_map.mp hp with ⟨_, hmem, rfl⟩
      rcases List.mem_map.mp hmem with ⟨f, hf, rfl⟩
      rcases Expansion.Role.field.inj hrole with ⟨hname, hrequired⟩
      exact ⟨f, hf, Prod.ext (Prod.ext hname hrequired) (hshape f hf g hg hsame)⟩
  rw [shapeOfFields, shapeOfFields, hsorted]

end Fields

/-- Generic mappings of one type have one shape, if they have keys of the same types. -/
theorem shapeOfFields_generic_eq_of_same {fields others : List (Value × TypeTree)}
    (hkeys : NameSet.ofList (fields.map (·.1.typeName)) = NameSet.ofList (others.map (·.1.typeName)))
    (hfields : ∀ c ∈ fields.map (·.2), Coherent s c) (hothers : ∀ d ∈ others.map (·.2), Coherent s d)
    (hshape : ∀ c ∈ fields.map (·.2), ∀ d ∈ others.map (·.2),
      c.expand.same d.expand = true → c.shape = d.shape)
    {head head' : Expansion.Head}
    (h : Expansion.same (.node head (Expansion.members ((fields.map (·.2)).map expand)))
      (.node head' (Expansion.members ((others.map (·.2)).map expand))) = true) :
    shapeOfFields .generic fields = shapeOfFields .generic others := by
  rw [shapeOfFields, shapeOfFields, hkeys,
    unorderedShapes_eq_of_sameSets hfields hothers hshape (sameSets_of_same_members h)]

/-- Sequences of one type have one shape, if elements of one type have. -/
theorem shapeOfElements_eq_of_same {kind : ElementKind} {elements others : List TypeTree}
    (helements : ∀ c ∈ elements, Coherent s c) (hothers : ∀ d ∈ others, Coherent s d)
    (hshape : ∀ c ∈ elements, ∀ d ∈ others, c.expand.same d.expand = true → c.shape = d.shape)
    (h : Expansion.same (.collection kind (elements.map expand))
      (.collection kind (others.map expand)) = true) :
    shapeOfElements kind elements = shapeOfElements kind others := by
  have hunordered := unorderedShapes_eq_of_sameSets helements hothers hshape
  cases kind with
  | list => exact congrArg (Shape.node _) (hunordered (sameSets_of_same_members h))
  | set frozen => exact congrArg (Shape.node _) (hunordered (sameSets_of_same_members h))
  | iterator => exact congrArg (Shape.node _) (hunordered (sameSets_of_same_members h))
  | tuple size =>
    cases size with
    | anySize => exact congrArg (Shape.node _) (hunordered (sameSets_of_same_members h))
    | fixed =>
      rcases Expansion.same_node_iff.mp h with ⟨_, hleft, hright⟩
      exact congrArg (Shape.node _) (map_shape_eq_of_positions hshape hleft hright)

section Mappings

variable {name name' : String} {v v' : Value} {form form' : MappingForm} {height height' : Nat}
  {shape shape' : Shape} {fields others : List (Value × TypeTree)}

/-- Mappings of one type have one shape, if their fields of one type have and the types of keys are
    known to be the same. -/
theorem shape_mapping_eq_of_same (ht : Coherent s (.mapping name v form height shape fields))
    (hu : Coherent s (.mapping name' v' form' height' shape' others))
    (hkeyTypes : (TypeTree.mapping name v form height shape fields).keyTypes =
      (TypeTree.mapping name' v' form' height' shape' others).keyTypes)
    (hchildren : ∀ c ∈ fields.map (·.2), ∀ d ∈ others.map (·.2), c.expand.same d.expand = true →
      c.shape = d.shape)
    (h : (TypeTree.mapping name v form height shape fields).expand.same
      (TypeTree.mapping name' v' form' height' shape' others).expand = true) : shape = shape' := by
  have hhead := Expansion.head_eq_of_same h
  rcases ht with _ | ⟨hfields, hdistinct, hfits, _, rfl⟩
  rcases hu with _ | ⟨hothers, hdistinct', hfits', _, rfl⟩
  -- The head of the type tells a record from a generic mapping.
  cases form with
  | record profile =>
    cases form' with
    | generic => contradiction
    | record other =>
      rw [expand, expand, expandFields_eq_map, expandFields_eq_map, List.map_map, List.map_map] at h
      exact shapeOfFields_eq_of_same ⟨hdistinct, hfits.textKeys⟩ ⟨hdistinct', hfits'.textKeys⟩
        (fun f hf g hg => hchildren f.2 (List.mem_map_of_mem hf) g.2 (List.mem_map_of_mem hg)) h
  | generic =>
    cases form' with
    | record other => contradiction
    | generic =>
      -- The types of the values are what a generic mapping expands, and its keys are given.
      have hexpand : ∀ fields : List (Value × TypeTree),
          (expandFields fields).map (·.2) = (fields.map (·.2)).map expand := by
        intro fields
        rw [expandFields_eq_map, List.map_map, List.map_map]
        rfl
      rw [expand, expand, hexpand, hexpand] at h
      exact shapeOfFields_generic_eq_of_same hkeyTypes (List.forall_mem_map.mpr hfields)
        (List.forall_mem_map.mpr hothers) hchildren h

end Mappings

/-- Nodes of one type have one shape, if the keys of mappings agree. -/
theorem Coherent.shape_eq_of_same (ht : Coherent s t) (hu : Coherent s u)
    (hkeys : KeysAgree (t.nodes ++ u.nodes)) (h : t.expand.same u.expand = true) :
    t.shape = u.shape := by
  induction t using induct_children generalizing u with
  | node t ih =>
    have hchildren : ∀ c ∈ t.children, ∀ d ∈ u.children, c.expand.same d.expand = true →
        c.shape = d.shape :=
      fun c hc d hd => ih c hc (ht.child hc) (hu.child hd) (hkeys.children hc hd)
    -- The type does not tell the types of keys, so this is where the assumption is needed.
    have hkeyTypes : t.keyTypes = u.keyTypes :=
      hkeys t (List.mem_append_left _ (mem_nodes_self t)) u (List.mem_append_right _ (mem_nodes_self u))
        (expandedType_eq_iff.mpr h)
    have hhead := Expansion.head_eq_of_same h
    -- The heads of the types say which kinds of nodes the two are, and that it is one kind.
    cases t with
    | scalar =>
      cases u with
      | scalar => exact congrArg Shape.scalar (Expansion.Head.scalar.inj hhead)
      | mapping _ _ form => cases form <;> contradiction
      | sequence => contradiction
    | mapping _ _ form =>
      cases u with
      | scalar => cases form <;> contradiction
      | sequence => cases form <;> contradiction
      | mapping => exact shape_mapping_eq_of_same ht hu hkeyTypes hchildren h
    | sequence _ _ kind _ _ elements =>
      cases u with
      | scalar => contradiction
      | mapping _ _ form => cases form <;> contradiction
      | sequence _ _ kind' _ _ others =>
        have hkind : kind = kind' := Expansion.Head.collection.inj hhead
        subst hkind
        rcases ht with _ | _ | ⟨helements, _, _, hshape⟩
        rcases hu with _ | _ | ⟨hothers, _, _, hshape'⟩
        rw [expand, expand, expandElements_eq_map, expandElements_eq_map] at h
        rw [TypeTree.shape, TypeTree.shape, hshape, hshape']
        exact shapeOfElements_eq_of_same helements hothers hchildren h

end TypeTree

end TypeSketch
