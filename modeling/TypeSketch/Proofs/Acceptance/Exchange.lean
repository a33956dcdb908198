import TypeSketch.Proofs.Acceptance.Basic
import TypeSketch.Proofs.Lists.Related
import TypeSketch.Proofs.Tree.Collisions

/-!
# Types of One Shape Accept the Same Values

When inference drops an element because another one has its digest, the other one has to
accept what the dropped one accepts. As long as digests do not collide, the two are of one
shape. They need not have the same children: a shape forgets the order and the number of
children of a union, and an integer that a number with a fraction stands beside. What it
forgets makes no difference to acceptance.

A record that takes in another one accepts what either of them accepts. A field that
both have is kept from the first one, with the shape that it has in the second, and a
field that one of them lacks is optional in the merge.

## Theorems

* `TypeTree.acceptsAny_of_unorderedShapes_eq`: Unions of one set of shapes.
* `TypeTree.Coherent.accepts_of_shape_eq`: Types of one shape.
* `TypeTree.IsMerge.accepts_left`, `TypeTree.IsMerge.accepts_right`: A merge accepts what its
  records accept.
-/

namespace TypeSketch

namespace TypeTree

variable {s : Strategies} {r : Registry}

section Shapes

theorem isScalarNamed_eq_shape_isScalarNamed {t : TypeTree} (h : Coherent s t) (name : String) :
    t.isScalarNamed name = t.shape.isScalarNamed name := by
  cases h with
  | scalar _ v type => simp [isScalarNamed, shape, Shape.scalar, Shape.isScalarNamed, Shape.form]
  | @mapping _ v form height shape fields _ _ _ _ hshape =>
    rw [TypeTree.shape, hshape]
    cases form <;> rfl
  | @sequence _ v kind height shape elements _ _ _ hshape =>
    rw [TypeTree.shape, hshape]
    cases kind with
    | tuple size => cases size <;> rfl
    | _ => rfl

theorem isScalarNamed_iff {t : TypeTree} {name : String} :
    t.isScalarNamed name = true ↔ ∃ other v type, t = .scalar other v type ∧ type.rendered = name := by
  cases t with
  | scalar other v type =>
    simp only [isScalarNamed, decide_eq_true_eq, scalar.injEq]
    constructor
    · exact fun h => ⟨other, v, type, ⟨rfl, rfl, rfl⟩, h⟩
    · rintro ⟨_, _, _, ⟨rfl, rfl, rfl⟩, h⟩
      exact h
  | mapping => simp [isScalarNamed]
  | sequence => simp [isScalarNamed]

/-- Lists of children with one set of shapes accept the same values, if children of one
    shape do. -/
theorem acceptsAny_of_unorderedShapes_eq {children others : List TypeTree}
    (hchildren : ∀ c ∈ children, Coherent s c) (hothers : ∀ d ∈ others, Coherent s d)
    (h : unorderedShapes children = unorderedShapes others)
    (hone : ∀ c ∈ children, ∀ d ∈ others, c.shape = d.shape →
      ∀ v, accepts r c v = true → accepts r d v = true)
    {v : Value} (hv : acceptsAny r children v = true) : acceptsAny r others v = true := by
  -- A child whose shape is kept has a partner of that shape.
  have hpartner : ∀ c ∈ children, c.shape ∈ unorderedShapes children →
      ∃ d ∈ others, d.shape = c.shape := by
    intro c _ hc
    rw [h, unorderedShapes, Shape.mem_canonical, Shape.mem_absorbIntegers] at hc
    exact List.mem_map.mp hc.1
  have hkept : ∀ c ∈ children, c.shape.isScalarNamed "int" = false →
      c.shape ∈ unorderedShapes children := by
    intro c hc hint
    rw [unorderedShapes, Shape.mem_canonical, Shape.mem_absorbIntegers]
    exact ⟨List.mem_map_of_mem hc, fun _ => hint⟩
  -- The shape of `float` is always kept, so both lists have it or neither has.
  have hfloat : (∃ c ∈ children, c.isScalarNamed "float" = true) →
      ∃ d ∈ others, d.isScalarNamed "float" = true := by
    rintro ⟨c, hc, hf⟩
    rw [isScalarNamed_eq_shape_isScalarNamed (hchildren c hc)] at hf
    have hint : c.shape.isScalarNamed "int" = false := by
      rw [Shape.isScalarNamed, decide_eq_true_eq] at hf
      rw [Shape.isScalarNamed, hf]
      rfl
    rcases hpartner c hc (hkept c hc hint) with ⟨d, hd, hshape⟩
    refine ⟨d, hd, ?_⟩
    rw [isScalarNamed_eq_shape_isScalarNamed (hothers d hd), hshape, hf]
  rw [acceptsAny_iff] at hv ⊢
  rcases hv with ⟨c, hc, hcv⟩ | ⟨hint, hf⟩
  · by_cases hmem : c.shape ∈ unorderedShapes children
    · rcases hpartner c hc hmem with ⟨d, hd, hshape⟩
      exact Or.inl ⟨d, hd, hone c hc d hd hshape.symm v hcv⟩
    -- A shape that is not kept is `int` beside `float`.
    · have hmem' := hmem
      rw [unorderedShapes, Shape.mem_canonical, Shape.mem_absorbIntegers, not_and, Classical.not_imp]
        at hmem
      rcases hmem (List.mem_map_of_mem hc) with ⟨⟨_, hother, hf⟩, hint⟩
      rcases List.mem_map.mp hother with ⟨c', hc', rfl⟩
      rw [Bool.not_eq_false, ← isScalarNamed_eq_shape_isScalarNamed (hchildren c hc),
        isScalarNamed_iff] at hint
      rcases hint with ⟨_, _, type, rfl, hrendered⟩
      rw [accepts, decide_eq_true_eq, hrendered] at hcv
      refine Or.inr ⟨hcv, hfloat ⟨c', hc', ?_⟩⟩
      rw [isScalarNamed_eq_shape_isScalarNamed (hchildren c' hc'), hf]
  · exact Or.inr ⟨hint, hfloat hf⟩

/-- The sorted fields of a record can be read off its shape. -/
theorem sortedFields_eq_of_shape_eq {profile profile' : RecordProfile}
    {fields fields' : List (Value × TypeTree)}
    (h : shapeOfFields (.record profile) fields = shapeOfFields (.record profile') fields') :
    sortedFields profile fields = sortedFields profile' fields' := by
  rw [shapeOfFields, shapeOfFields, Shape.node.injEq, Form.record.injEq] at h
  -- The form of the shape has the names, and its parts are the shapes of the fields.
  have hzip : ∀ rows : List ((String × Bool) × Shape),
      (rows.map (·.1)).zip (rows.map (·.2)) = rows := by
    intro rows
    rw [List.zip_map']
    exact List.map_id rows
  rw [← hzip (sortedFields profile fields), h.1, h.2, hzip]

/-- Records of one shape have the same fields, of the same shapes. -/
theorem exists_field_of_shape_eq {profile profile' : RecordProfile}
    {fields fields' : List (Value × TypeTree)} (ht : Value.TextKeys fields)
    (ht' : Value.TextKeys fields')
    (h : shapeOfFields (.record profile) fields = shapeOfFields (.record profile') fields')
    {f : Value × TypeTree} (hf : f ∈ fields) :
    ∃ g ∈ fields', g.1 = f.1 ∧ g.2.shape = f.2.shape ∧
      (g.1.keyText ∈ profile'.optionalFields ↔ f.1.keyText ∈ profile.optionalFields) := by
  have hmem : ((f.1.keyText, !profile.optionalFields.contains f.1.keyText), f.2.shape) ∈
      sortedFields profile fields := mem_sortedFields.mpr ⟨f, hf, rfl⟩
  rw [sortedFields_eq_of_shape_eq h] at hmem
  rcases mem_sortedFields.mp hmem with ⟨g, hg, heq⟩
  rw [Prod.mk.injEq, Prod.mk.injEq, Bool.not_inj_iff] at heq
  refine ⟨g, hg, ?_, heq.2, ?_⟩
  · exact Value.eq_of_keyText_eq (ht' g hg) (ht f hf) heq.1.1
  · rw [← NameSet.contains_iff, ← NameSet.contains_iff, heq.1.2]

section Nodes

variable {name name' : String} {origin origin' v : Value} {height height' : Nat}
  {shape shape' : Shape}

theorem accepts_record_of_shape_eq {profile profile' : RecordProfile}
    {fields fields' : List (Value × TypeTree)} (hd : Value.DistinctKeys fields)
    (hd' : Value.DistinctKeys fields') (ht : Value.TextKeys fields) (ht' : Value.TextKeys fields')
    (h : shapeOfFields (.record profile) fields = shapeOfFields (.record profile') fields')
    (hone : ∀ f ∈ fields, ∀ g ∈ fields', f.2.shape = g.2.shape →
      ∀ v, accepts r f.2 v = true → accepts r g.2 v = true)
    (hv : accepts r (.mapping name origin (.record profile) height shape fields) v = true) :
    accepts r (.mapping name' origin' (.record profile') height' shape' fields') v = true := by
  rw [accepts_record_iff] at hv ⊢
  rcases hv with ⟨entries, rfl, hentries, hrequired⟩
  refine ⟨entries, rfl, fun e he => ?_, fun g hg hoptional => ?_⟩
  -- An entry goes from the field of the one record to that of the other, and a required
  -- field the other way.
  · rcases hentries e he with ⟨c, hentry, hc⟩
    rw [Value.entry?_eq_some_iff_of_textKeys hd ht] at hentry
    rcases exists_field_of_shape_eq ht ht' h hentry with ⟨g, hg, hkey, hshape, _⟩
    refine ⟨g.2, ?_, hone _ hentry g hg hshape.symm e.2 hc⟩
    rw [Value.entry?_eq_some_iff_of_textKeys hd' ht', ← hkey]
    exact hg
  · rcases exists_field_of_shape_eq ht' ht h.symm hg with ⟨f, hf, hkey, _, hopt⟩
    rcases hrequired f hf (fun hf' => hoptional (hopt.mp hf')) with ⟨e, he, hsame⟩
    rw [hkey] at hsame
    exact ⟨e, he, hsame⟩

theorem accepts_generic_of_shape_eq {fields fields' : List (Value × TypeTree)}
    (hchildren : ∀ f ∈ fields, Coherent s f.2) (hchildren' : ∀ g ∈ fields', Coherent s g.2)
    (h : shapeOfFields .generic fields = shapeOfFields .generic fields')
    (hone : ∀ f ∈ fields, ∀ g ∈ fields', f.2.shape = g.2.shape →
      ∀ v, accepts r f.2 v = true → accepts r g.2 v = true)
    (hv : accepts r (.mapping name origin .generic height shape fields) v = true) :
    accepts r (.mapping name' origin' .generic height' shape' fields') v = true := by
  rw [shapeOfFields, shapeOfFields, Shape.node.injEq, Form.mapping.injEq] at h
  -- The form of the shape has the types of the keys, and its parts are the shapes of the values.
  have hkeyTypes : NameSet.ofList (fields.map (·.1.typeName)) =
      NameSet.ofList (fields'.map (·.1.typeName)) := by
    refine NameSet.ext_mem fun name => ?_
    change name ∈ (NameSet.ofList _).names ↔ name ∈ (NameSet.ofList _).names
    rw [h.1]
  rw [accepts_generic_iff] at hv ⊢
  rcases hv with ⟨entries, rfl, hentries⟩
  refine ⟨entries, rfl, fun e he => ?_⟩
  rw [← hkeyTypes]
  refine ⟨(hentries e he).1, ?_⟩
  exact acceptsAny_of_unorderedShapes_eq (List.forall_mem_map.mpr hchildren)
    (List.forall_mem_map.mpr hchildren') h.2
    (List.forall_mem_map.mpr fun f hf => List.forall_mem_map.mpr fun g hg => hone f hf g hg)
    (hentries e he).2

theorem accepts_elements_of_shape_eq {kind : ElementKind} {elements elements' : List TypeTree}
    (hchildren : ∀ c ∈ elements, Coherent s c) (hchildren' : ∀ d ∈ elements', Coherent s d)
    (h : shapeOfElements kind elements = shapeOfElements kind elements')
    (hone : ∀ c ∈ elements, ∀ d ∈ elements', c.shape = d.shape →
      ∀ v, accepts r c v = true → accepts r d v = true)
    (hv : accepts r (.sequence name origin kind height shape elements) v = true) :
    accepts r (.sequence name' origin' kind height' shape' elements') v = true := by
  -- The shape of a fixed tuple has its parts in order, and that of any other sequence as a set.
  by_cases hkind : kind = .tuple .fixed
  · rw [hkind, shapeOfElements, shapeOfElements, Shape.node.injEq] at h
    rw [hkind, accepts_fixed_iff] at hv ⊢
    rcases hv with ⟨items, rfl, hitems⟩
    refine ⟨items, rfl, hitems.imp (fun hnil => ?_) (fun heach => ?_)⟩
    · rw [hnil, List.map_nil] at h
      exact List.map_eq_nil_iff.mp h.2.symm
    · exact forall₂_of_map_eq heach h.2 fun c hc d hd heq w => hone c hc d hd heq w
  · have hunordered : unorderedShapes elements = unorderedShapes elements' := by
      cases kind with
      | tuple size =>
        cases size with
        | fixed => contradiction
        | anySize => exact (Shape.node.inj h).2
      | _ => exact (Shape.node.inj h).2
    rw [accepts_collection_iff hkind] at hv ⊢
    rcases hv with ⟨items, rfl, hitems⟩
    exact ⟨items, rfl, fun w hw =>
      acceptsAny_of_unorderedShapes_eq hchildren hchildren' hunordered hone (hitems w hw)⟩

end Nodes

/-- Types of one shape accept the same values. -/
theorem Coherent.accepts_of_shape_eq {t u : TypeTree} (ht : Coherent s t) (hu : Coherent s u)
    (h : t.shape = u.shape) {v : Value} (hv : t.accepts r v = true) : u.accepts r v = true := by
  induction t using induct_children generalizing u v with
  | node t ih =>
    -- What the children of the one accept, those children of the other accept that have their shape.
    have hone : ∀ c ∈ t.children, ∀ d ∈ u.children, c.shape = d.shape →
        ∀ v, accepts r c v = true → accepts r d v = true :=
      fun c hc d hd heq v hv => ih c hc (ht.child hc) (hu.child hd) heq hv
    -- Two nodes of one shape are made alike, which leaves one case for each kind of node.
    cases ht.isMadeLike hu h with
    | scalar rendered_eq =>
      rw [accepts, ← rendered_eq]
      exact hv
    | record shape_eq =>
      rcases ht with _ | ⟨_, hdistinct, hfits, _, _⟩
      rcases hu with _ | ⟨_, hdistinct', hfits', _, _⟩
      refine accepts_record_of_shape_eq hdistinct hdistinct' hfits.textKeys hfits'.textKeys shape_eq ?_ hv
      exact fun f hf g hg => hone f.2 (List.mem_map_of_mem hf) g.2 (List.mem_map_of_mem hg)
    | generic shape_eq =>
      rcases ht with _ | ⟨hchildren, _, _, _, _⟩
      rcases hu with _ | ⟨hchildren', _, _, _, _⟩
      refine accepts_generic_of_shape_eq hchildren hchildren' shape_eq ?_ hv
      exact fun f hf g hg => hone f.2 (List.mem_map_of_mem hf) g.2 (List.mem_map_of_mem hg)
    | sequence shape_eq =>
      rcases ht with _ | _ | ⟨hchildren, _, _, _⟩
      rcases hu with _ | _ | ⟨hchildren', _, _, _⟩
      exact accepts_elements_of_shape_eq hchildren hchildren' shape_eq hone hv

end Shapes

section Merges

variable {similarity : Nat}

/-- A required field of a merge is a required field of both records. -/
theorem required_in_both {ours theirs : RecordProfile} {ourName theirName : String}
    {left right : List (Value × TypeTree)} (hright : Value.DistinctKeys right)
    {f : Value × TypeTree} (hf : f ∈ mergeFields ourName theirName left right)
    (hrequired : f.1.keyText ∉
      (mergeProfiles ours theirs (fieldNames left) (fieldNames right)).optionalFields) :
    (f.1.keyText ∉ ours.optionalFields ∧ f.1.keyText ∈ fieldNames left) ∧
      f.1.keyText ∉ theirs.optionalFields ∧ f.1.keyText ∈ fieldNames right := by
  rw [mem_mergeProfiles, not_or, not_or, not_or] at hrequired
  rcases hrequired with ⟨hours, htheirs, hleft, hright'⟩
  have hnames : f.1.keyText ∈ fieldNames left ∨ f.1.keyText ∈ fieldNames right := by
    simp only [mem_fieldNames]
    rcases key_mem_of_mem_mergeFields hright hf with hkey | hkey
    · rcases List.mem_map.mp hkey with ⟨g, hg, heq⟩
      exact Or.inl ⟨g, hg, by rw [heq]⟩
    · rcases List.mem_map.mp hkey with ⟨g, hg, heq⟩
      exact Or.inr ⟨g, hg, by rw [heq]⟩
  -- A name that only one of the records has is optional in the merge.
  have hboth : f.1.keyText ∈ fieldNames left ∧ f.1.keyText ∈ fieldNames right := by
    by_cases hl : f.1.keyText ∈ fieldNames left
    · refine ⟨hl, ?_⟩
      by_contra hr
      exact hleft ⟨hl, hr⟩
    · exact absurd ⟨hnames.resolve_left hl, hl⟩ hright'
  exact ⟨⟨hours, hboth.1⟩, htheirs, hboth.2⟩

/-- An entry for a field that another list of fields has under the same name. -/
theorem exists_entry_of_name {fields : List (Value × TypeTree)} (ht : Value.TextKeys fields)
    {f : Value × TypeTree} (hf : ∃ s, f.1 = .str s) (hname : f.1.keyText ∈ fieldNames fields)
    {entries : List (Value × Value)}
    (h : ∀ g ∈ fields, g.1.keyText = f.1.keyText → ∃ e ∈ entries, e.1.same g.1 = true) :
    ∃ e ∈ entries, e.1.same f.1 = true := by
  rcases mem_fieldNames.mp hname with ⟨g, hg, hkeyText⟩
  rcases h g hg hkeyText with ⟨e, he, hsame⟩
  rw [Value.eq_of_keyText_eq (ht g hg) hf hkeyText] at hsame
  exact ⟨e, he, hsame⟩

/-- A merge accepts what the record that takes in the other one accepts. -/
theorem IsMerge.accepts_left {a b m : TypeTree} (h : IsMerge similarity a b m) (ha : Coherent s a)
    (hb : Coherent s b) {v : Value} (hv : a.accepts r v = true) : m.accepts r v = true := by
  have hm := h.coherent ha hb
  cases h with | @intro name theirName _ _ ours theirs _ _ _ _ left right _ =>
  rcases ha with _ | ⟨_, hdistinct, hfits, _, _⟩
  rcases hb with _ | ⟨_, hdistinct', _, _, _⟩
  rcases hm with _ | ⟨_, hmdistinct, hmfits, _, _⟩
  rw [accepts_record_iff] at hv ⊢
  rcases hv with ⟨entries, rfl, hentries, hrequired⟩
  refine ⟨entries, rfl, fun e he => ?_, fun f hf hoptional => ?_⟩
  -- The fields of the first record are kept as they are. What is required in the merge is required
  -- in both records.
  · rcases hentries e he with ⟨c, hentry, hc⟩
    refine ⟨c, ?_, hc⟩
    rw [Value.entry?_eq_some_iff_of_textKeys hdistinct hfits.textKeys] at hentry
    rw [Value.entry?_eq_some_iff_of_textKeys hmdistinct hmfits.textKeys,
      mergeFields_eq_append hdistinct']
    exact List.mem_append_left _ hentry
  · rcases (required_in_both hdistinct' hf hoptional).1 with ⟨hopt, hname⟩
    refine exists_entry_of_name hfits.textKeys (hmfits.textKeys f hf) hname fun g hg hkeyText => ?_
    exact hrequired g hg (by rw [hkeyText]; exact hopt)

/-- A merge accepts what the record that is taken in accepts, if the digests of what the two
    records share do not collide. -/
theorem IsMerge.accepts_right {shapes : List Shape} (hfree : Shape.CollisionFree shapes)
    {a b m : TypeTree} (h : IsMerge similarity a b m) (hknown : IsKnown s shapes a)
    (hknown' : IsKnown s shapes b) {v : Value} (hv : b.accepts r v = true) :
    m.accepts r v = true := by
  have hb := hknown'.coherent
  have hm := h.coherent hknown.coherent hb
  have hshared := fun c hc d hd => hknown.shape_eq_of_digest_eq hfree hknown' (c := c) (d := d) hc hd
  cases h with | @intro name theirName _ _ ours theirs _ _ _ _ left right hsim =>
  rcases hb with _ | ⟨hchildren', hdistinct', hfits', _, _⟩
  rcases hm with _ | ⟨hmchildren, hmdistinct, hmfits, _, _⟩
  rw [accepts_record_iff] at hv ⊢
  rcases hv with ⟨entries, rfl, hentries, hrequired⟩
  refine ⟨entries, rfl, fun e he => ?_, fun f hf hoptional => ?_⟩
  · rcases hentries e he with ⟨c, hentry, hc⟩
    rw [Value.entry?_eq_some_iff_of_textKeys hdistinct' hfits'.textKeys] at hentry
    -- The field is in the merge, perhaps with the subtree that the other record has there.
    have hfield : ∃ f ∈ mergeFields name theirName left right, f.1 = e.1 ∧ f.2.shape = c.shape :=
      exists_shape_mem_mergeFields hdistinct' hfits'.textKeys hsim hentry fun f hf =>
        hshared f.2 (List.mem_map_of_mem hf) c (List.mem_map_of_mem hentry)
    rcases hfield with ⟨f, hf, hkey, hshape⟩
    refine ⟨f.2, ?_, (hchildren' _ hentry).accepts_of_shape_eq (hmchildren f hf) hshape.symm hc⟩
    rw [Value.entry?_eq_some_iff_of_textKeys hmdistinct hmfits.textKeys, ← hkey]
    exact hf
  -- What the merge requires is required in both records, so the value has it.
  · rcases (required_in_both hdistinct' hf hoptional).2 with ⟨hopt, hname⟩
    refine exists_entry_of_name hfits'.textKeys (hmfits.textKeys f hf) hname fun g hg hkeyText => ?_
    exact hrequired g hg (by rw [hkeyText]; exact hopt)

end Merges

end TypeTree

end TypeSketch
