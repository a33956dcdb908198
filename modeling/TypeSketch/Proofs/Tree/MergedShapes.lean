import TypeSketch.Proofs.Acceptance.Exchange
import TypeSketch.Proofs.Expansion.ToShape
import TypeSketch.Proofs.Tree.Corresponding

/-!
# Merging Goes by Shapes

Whether two records are merged, and the shape of the merge, are functions of their shapes. The
shape of a record is its sorted fields: for each of them the name, whether it is required, and
its shape. Similarity counts names in these rows and compares the digests of the shapes in them,
and the rows of a merge can be read off those of the two records.

A record may hold names as optional that are not in its rows. In a merge such a name stands in
the rows of at most one of the two records and is optional for that reason already.

So the passes over siblings do the same to two lists of trees of the same shapes, whatever the
order of the fields in them is.

## Main definitions

* `TypeTree.EqShape`: Two coherent trees of one shape.

## Theorems

* `TypeTree.areSimilar_iff`: Similarity by rows.
* `TypeTree.mem_sortedFields_merge`: The rows of a merge.
* `TypeTree.EqShape.merge?`: The merges of records of the same shapes.
* `TypeTree.map_shape_arrange`: The shapes of arranged elements.
-/

namespace TypeSketch

namespace TypeTree

variable {s : Strategies} {similarity : Nat}

section Rows

variable {ours theirs : RecordProfile} {left right : List (Value × TypeTree)}

variable {profile : RecordProfile} {fields : List (Value × TypeTree)} {name : String} {shape : Shape}

theorem mem_sortedFields_iff {required : Bool} :
    ((name, required), shape) ∈ sortedFields profile fields ↔
      (∃ f ∈ fields, f.1.keyText = name ∧ f.2.shape = shape) ∧
        (required = true ↔ name ∉ profile.optionalFields) := by
  have hflag : ∀ text : String, (!profile.optionalFields.contains text) = required ↔
      (required = true ↔ text ∉ profile.optionalFields) := by
    intro text
    rw [← NameSet.contains_eq_false_iff]
    cases required <;> cases profile.optionalFields.contains text <;> decide
  rw [mem_sortedFields]
  constructor
  · rintro ⟨f, hf, heq⟩
    rw [Prod.mk.injEq, Prod.mk.injEq] at heq
    rcases heq with ⟨⟨rfl, hrequired⟩, hshape⟩
    exact ⟨⟨f, hf, rfl, hshape⟩, (hflag _).mp hrequired⟩
  · rintro ⟨⟨f, hf, rfl, rfl⟩, hrequired⟩
    exact ⟨f, hf, by rw [(hflag _).mpr hrequired]⟩

theorem exists_shape_iff : (∃ row ∈ sortedFields profile fields, row.1.1 = name ∧ row.2 = shape) ↔
    ∃ f ∈ fields, f.1.keyText = name ∧ f.2.shape = shape := by
  constructor
  · rintro ⟨row, hrow, rfl, rfl⟩
    exact (mem_sortedFields_iff.mp hrow).1
  · rintro ⟨f, hf, rfl, rfl⟩
    exact ⟨_, mem_sortedFields.mpr ⟨f, hf, rfl⟩, rfl, rfl⟩

theorem exists_row_iff : (∃ row ∈ sortedFields profile fields, row.1.1 = name) ↔
    ∃ f ∈ fields, f.1.keyText = name := by
  constructor
  · rintro ⟨row, hrow, rfl⟩
    rcases mem_sortedFields.mp hrow with ⟨f, hf, rfl⟩
    exact ⟨f, hf, rfl⟩
  · rintro ⟨f, hf, rfl⟩
    exact ⟨_, mem_sortedFields.mpr ⟨f, hf, rfl⟩, rfl⟩

theorem exists_required_iff : (∃ row ∈ sortedFields profile fields, row.1 = (name, true)) ↔
    (∃ f ∈ fields, f.1.keyText = name) ∧ name ∉ profile.optionalFields := by
  constructor
  · rintro ⟨⟨_, shape⟩, hrow, rfl⟩
    rcases mem_sortedFields_iff.mp hrow with ⟨⟨f, hf, hname, _⟩, hrequired⟩
    exact ⟨⟨f, hf, hname⟩, hrequired.mp rfl⟩
  · rintro ⟨⟨f, hf, hname⟩, hrequired⟩
    exact ⟨((name, true), f.2.shape), mem_sortedFields_iff.mpr
      ⟨⟨f, hf, hname, rfl⟩, iff_of_true rfl hrequired⟩, rfl⟩

/-- A record has a field under a key if it has one of that name. -/
theorem isSome_entry?_iff (hdistinct : Value.DistinctKeys fields)
    (htexts : Value.TextKeys fields) {key : Value} (hkey : ∃ text, key = .str text) :
    (Value.entry? fields key).isSome = true ↔ ∃ f ∈ fields, f.1.keyText = key.keyText := by
  rw [Option.isSome_iff_exists]
  constructor
  · rintro ⟨child, hchild⟩
    exact ⟨(key, child), (Value.entry?_eq_some_iff_of_textKeys hdistinct htexts).mp hchild, rfl⟩
  · rintro ⟨f, hf, hname⟩
    have heq : f.1 = key := Value.eq_of_keyText_eq (htexts f hf) hkey hname
    refine ⟨f.2, (Value.entry?_eq_some_iff_of_textKeys hdistinct htexts).mpr ?_⟩
    rwa [← heq]

theorem mem_sharedFields {a b : TypeTree} :
    (a, b) ∈ sharedFields left right ↔ ∃ key, (key, a) ∈ left ∧ Value.entry? right key = some b := by
  rw [sharedFields, List.mem_filterMap]
  constructor
  · rintro ⟨⟨key, child⟩, hmem, hpair⟩
    rcases Option.map_eq_some_iff.mp hpair with ⟨other, hother, heq⟩
    rw [Prod.mk.injEq] at heq
    rw [← heq.1, ← heq.2]
    exact ⟨key, hmem, hother⟩
  · rintro ⟨key, hmem, hentry⟩
    exact ⟨(key, a), hmem, by dsimp only; rw [hentry, Option.map_some]⟩

/-- The shared fields have one digest each if rows of one name have. -/
theorem sharedFields_agree_iff (htexts : Value.TextKeys left) (hdistinct' : Value.DistinctKeys right)
    (htexts' : Value.TextKeys right) :
    (sharedFields left right).all (fun (a, b) => a.digest = b.digest) = true ↔
      ∀ row ∈ sortedFields ours left, ∀ other ∈ sortedFields theirs right,
        row.1.1 = other.1.1 → row.2.digest = other.2.digest := by
  have hentry : ∀ {key child}, Value.entry? right key = some child ↔ (key, child) ∈ right :=
    Value.entry?_eq_some_iff_of_textKeys hdistinct' htexts'
  rw [List.all_eq_true]
  constructor
  · intro h row hrow other hother hname
    rcases mem_sortedFields.mp hrow with ⟨f, hf, rfl⟩
    rcases mem_sortedFields.mp hother with ⟨g, hg, rfl⟩
    have hkey : f.1 = g.1 := Value.eq_of_keyText_eq (htexts f hf) (htexts' g hg) hname
    exact decide_eq_true_eq.mp (h (f.2, g.2) (mem_sharedFields.mpr ⟨f.1, hf, hentry.mpr (hkey ▸ hg)⟩))
  · rintro h ⟨a, b⟩ hpair
    rcases mem_sharedFields.mp hpair with ⟨key, hleft, hright⟩
    exact decide_eq_true (h _ (mem_sortedFields.mpr ⟨_, hleft, rfl⟩) _
      (mem_sortedFields.mpr ⟨_, hentry.mp hright, rfl⟩) rfl)

theorem length_sharedFields (htexts : Value.TextKeys left) (hdistinct' : Value.DistinctKeys right)
    (htexts' : Value.TextKeys right) :
    (sharedFields left right).length = (sortedFields ours left).countP fun row =>
      (sortedFields theirs right).any (·.1.1 = row.1.1) := by
  rw [sharedFields, List.length_filterMap_eq_countP, (perm_sortedFields ours left).countP_eq,
    List.countP_map]
  refine List.countP_congr fun f hf => ?_
  dsimp only [Function.comp_apply]
  rw [Option.isSome_map, isSome_entry?_iff hdistinct' htexts' (htexts f hf),
    ← @exists_row_iff theirs, List.any_eq_true]
  simp only [decide_eq_true_eq]

/-- Two records are similar if rows of one name have one digest in both, and there are enough
    of them. -/
theorem areSimilar_iff (htexts : Value.TextKeys left) (hdistinct' : Value.DistinctKeys right)
    (htexts' : Value.TextKeys right) :
    areSimilar similarity left right = true ↔
      (∀ row ∈ sortedFields ours left, ∀ other ∈ sortedFields theirs right,
        row.1.1 = other.1.1 → row.2.digest = other.2.digest) ∧
      (let shared := (sortedFields ours left).countP fun row =>
          (sortedFields theirs right).any (·.1.1 = row.1.1)
        let all := (sortedFields ours left).length + (sortedFields theirs right).length - shared
        0 < all ∧ similarity * all ≤ shared * 100) := by
  have hlength : ∀ (profile : RecordProfile) (fields : List (Value × TypeTree)),
      (sortedFields profile fields).length = fields.length := by
    intro profile fields
    rw [(perm_sortedFields profile fields).length_eq, List.length_map]
  rw [areSimilar, Bool.and_eq_true, Bool.and_eq_true,
    sharedFields_agree_iff htexts hdistinct' htexts', decide_eq_true_eq, decide_eq_true_eq,
    length_sharedFields htexts hdistinct' htexts', hlength, hlength, and_assoc]

variable (hdistinct : Value.DistinctKeys left) (htexts : Value.TextKeys left)
  (hdistinct' : Value.DistinctKeys right) (htexts' : Value.TextKeys right)
  {ourName theirName : String}

include hdistinct htexts hdistinct' htexts'

/-- A field of a merge is one of the first record, or one of the second that alone has its
    name. -/
theorem exists_mem_mergeFields_iff :
    (∃ f ∈ mergeFields ourName theirName left right, f.1.keyText = name ∧ f.2.shape = shape) ↔
      (∃ f ∈ left, f.1.keyText = name ∧ f.2.shape = shape) ∨
        (¬∃ f ∈ left, f.1.keyText = name) ∧ ∃ g ∈ right, g.1.keyText = name ∧ g.2.shape = shape := by
  -- A field of the second record is new if no field of the first one has its name.
  have hnew : ∀ {g}, g ∈ right →
      (Value.entry? left g.1 = none ↔ ¬∃ f ∈ left, f.1.keyText = g.1.keyText) := fun hg => by
    rw [← isSome_entry?_iff hdistinct htexts (htexts' _ hg), Option.not_isSome_iff_eq_none]
  rw [mergeFields_eq_append hdistinct']
  constructor
  · rintro ⟨f, hf, rfl, rfl⟩
    rcases List.mem_append.mp hf with hf | hf
    · exact Or.inl ⟨f, hf, rfl, rfl⟩
    · rcases mem_newFields.mp hf with ⟨g, hg, hnone, rfl⟩
      exact Or.inr ⟨(hnew hg).mp hnone, g, hg, rfl, (shape_adopt _ _ _).symm⟩
  · rintro (⟨f, hf, rfl, rfl⟩ | ⟨hnone, g, hg, rfl, rfl⟩)
    · exact ⟨f, List.mem_append_left _ hf, rfl, rfl⟩
    · exact ⟨_, List.mem_append_right _ (mem_newFields.mpr ⟨g, hg, (hnew hg).mpr hnone, rfl⟩), rfl,
        shape_adopt _ _ _⟩

/-- The rows of a merge are rows of the first record, or of the second if it alone has the name.
    A field is required if it is in both. -/
theorem mem_sortedFields_merge {required : Bool} :
    ((name, required), shape) ∈ sortedFields
        (mergeProfiles ours theirs (fieldNames left) (fieldNames right))
        (mergeFields ourName theirName left right) ↔
      ((∃ row ∈ sortedFields ours left, row.1.1 = name ∧ row.2 = shape) ∨
        (¬∃ row ∈ sortedFields ours left, row.1.1 = name) ∧
          ∃ row ∈ sortedFields theirs right, row.1.1 = name ∧ row.2 = shape) ∧
      (required = true ↔ (∃ row ∈ sortedFields ours left, row.1 = (name, true)) ∧
        ∃ row ∈ sortedFields theirs right, row.1 = (name, true)) := by
  rw [mem_sortedFields_iff, exists_mem_mergeFields_iff hdistinct htexts hdistinct' htexts',
    exists_shape_iff, exists_shape_iff, exists_row_iff, exists_required_iff, exists_required_iff,
    mem_mergeProfiles, mem_fieldNames, mem_fieldNames]
  refine and_congr_right fun hname => iff_congr Iff.rfl ?_
  have hknown : (∃ f ∈ left, f.1.keyText = name) ∨ ∃ g ∈ right, g.1.keyText = name := by
    rcases hname with ⟨f, hf, hf_name, _⟩ | ⟨_, g, hg, hg_name, _⟩
    · exact Or.inl ⟨f, hf, hf_name⟩
    · exact Or.inr ⟨g, hg, hg_name⟩
  -- What is optional in one record and missing there is in the other one alone.
  by_cases hleft : ∃ f ∈ left, f.1.keyText = name <;>
    by_cases hright : ∃ g ∈ right, g.1.keyText = name <;>
    simp only [hleft, hright, not_or, true_and, false_and, and_true, and_false, not_true,
      not_false_eq_true, or_self] at hknown ⊢

end Rows

section Merging

/-- Two coherent trees of one shape. -/
structure EqShape (s : Strategies) (t u : TypeTree) : Prop where
  left_coherent : Coherent s t
  right_coherent : Coherent s u
  shape_eq : t.shape = u.shape

theorem Coherent.isRecord_iff {t : TypeTree} (h : Coherent s t) :
    t.isRecord = true ↔ ∃ names, t.shape.form = .record names := by
  -- The form of a record has the names of its fields in it, and no other form has any.
  cases h with
  | scalar name v type =>
    refine iff_of_false Bool.false_ne_true ?_
    rintro ⟨_, hform⟩
    exact Form.noConfusion hform
  | @mapping name v form height shape fields _ _ _ _ hshape =>
    rw [TypeTree.shape, hshape]
    cases form with
    | record profile => exact iff_of_true rfl ⟨_, rfl⟩
    | generic =>
      refine iff_of_false Bool.false_ne_true ?_
      rintro ⟨_, hform⟩
      exact Form.noConfusion hform
  | @sequence name v kind height shape elements _ _ _ hshape =>
    refine iff_of_false Bool.false_ne_true ?_
    rintro ⟨_, hform⟩
    rw [TypeTree.shape, hshape, form_shapeOfElements] at hform
    cases kind <;> exact Form.noConfusion hform

theorem EqShape.isRecord_iff {t u : TypeTree} (h : EqShape s t u) :
    t.isRecord = true ↔ u.isRecord = true := by
  rw [h.left_coherent.isRecord_iff, h.right_coherent.isRecord_iff, h.shape_eq]

variable {ours ours' theirs theirs' : RecordProfile}
  {left left' right right' : List (Value × TypeTree)}

/-- Records of one shape have the same rows. -/
theorem EqShape.rows {name name' : String} {v v' : Value} {height height' : Nat} {shape shape' : Shape}
    (h : EqShape s (.mapping name v (.record ours) height shape left)
      (.mapping name' v' (.record ours') height' shape' left')) :
    (Value.DistinctKeys left ∧ Value.TextKeys left) ∧
      (Value.DistinctKeys left' ∧ Value.TextKeys left') ∧
        sortedFields ours left = sortedFields ours' left' := by
  rcases h with ⟨_ | ⟨_, hd, hfits, _, hshape⟩, _ | ⟨_, hd', hfits', _, hshape'⟩, heq⟩
  change shape = shape' at heq
  rw [hshape, hshape'] at heq
  exact ⟨⟨hd, hfits.textKeys⟩, ⟨hd', hfits'.textKeys⟩, sortedFields_eq_of_shape_eq heq⟩

/-- The shape of a merge is a function of the rows of the two records. -/
theorem shapeOfFields_merge_congr {name name' theirName theirName' : String}
    (hleft : Value.DistinctKeys left ∧ Value.TextKeys left)
    (hleft' : Value.DistinctKeys left' ∧ Value.TextKeys left')
    (hright : Value.DistinctKeys right ∧ Value.TextKeys right)
    (hright' : Value.DistinctKeys right' ∧ Value.TextKeys right')
    (hours : sortedFields ours left = sortedFields ours' left')
    (htheirs : sortedFields theirs right = sortedFields theirs' right') :
    shapeOfFields (.record (mergeProfiles ours theirs (fieldNames left) (fieldNames right)))
        (mergeFields name theirName left right) =
      shapeOfFields (.record (mergeProfiles ours' theirs' (fieldNames left') (fieldNames right')))
        (mergeFields name' theirName' left' right') := by
  -- Rows are sorted by their names, so they make one list if no name comes twice.
  have hnodup : ∀ {profile : RecordProfile} {n m : String} {xs ys : List (Value × TypeTree)},
      Value.DistinctKeys xs ∧ Value.TextKeys xs → Value.DistinctKeys ys ∧ Value.TextKeys ys →
      ((sortedFields profile (mergeFields n m xs ys)).map (·.1.1)).Nodup := by
    intro profile n m xs ys hxs hys
    refine nodup_names_sortedFields (distinctKeys_mergeFields hxs.1 hys.1 hys.2) fun f hf => ?_
    rcases key_mem_of_mem_mergeFields hys.1 hf with hkey | hkey
    · rcases List.mem_map.mp hkey with ⟨g, hg, heq⟩
      rw [← heq]
      exact hxs.2 g hg
    · rcases List.mem_map.mp hkey with ⟨g, hg, heq⟩
      rw [← heq]
      exact hys.2 g hg
  -- A row of the merge can be told from the rows of the two records.
  have hsorted :
      sortedFields (mergeProfiles ours theirs (fieldNames left) (fieldNames right))
          (mergeFields name theirName left right) =
        sortedFields (mergeProfiles ours' theirs' (fieldNames left') (fieldNames right'))
          (mergeFields name' theirName' left' right') := by
    refine sortedFields_eq_of_mem_iff (hnodup hleft hright) (hnodup hleft' hright') ?_
    rintro ⟨⟨text, required⟩, shape⟩
    rw [mem_sortedFields_merge hleft.1 hleft.2 hright.1 hright.2,
      mem_sortedFields_merge hleft'.1 hleft'.2 hright'.1 hright'.2, hours, htheirs]
  rw [shapeOfFields, shapeOfFields, hsorted]

/-- Records of the same shapes are merged alike. -/
theorem EqShape.merge? {a a' b b' : TypeTree} (ha : EqShape s a a') (hb : EqShape s b b') :
    Option.Rel (EqShape s) (a.merge? similarity b) (a'.merge? similarity b') := by
  by_cases hrecords : a.isRecord = true ∧ b.isRecord = true
  · rcases exists_eq_of_isRecord hrecords.1 with ⟨name, v, ours, height, shape, left, rfl⟩
    rcases exists_eq_of_isRecord hrecords.2 with ⟨theirName, w, theirs, _, _, right, rfl⟩
    rcases exists_eq_of_isRecord (ha.isRecord_iff.mp rfl) with ⟨name', v', ours', _, _, left', rfl⟩
    rcases exists_eq_of_isRecord (hb.isRecord_iff.mp rfl) with
      ⟨theirName', w', theirs', _, _, right', rfl⟩
    rcases ha.rows with ⟨hleft, hleft', hours⟩
    rcases hb.rows with ⟨hright, hright', htheirs⟩
    -- Whether two records are similar can be told from their rows, and so can what they merge to.
    have hsimilar : areSimilar similarity left right = areSimilar similarity left' right' := by
      rw [Bool.eq_iff_iff, areSimilar_iff hleft.2 hright.1 hright.2,
        areSimilar_iff hleft'.2 hright'.1 hright'.2, hours, htheirs]
    by_cases hsim : areSimilar similarity left right = true
    · have hsim' := hsimilar ▸ hsim
      rw [merge?_eq_some_iff.mpr (IsMerge.intro hsim), merge?_eq_some_iff.mpr (IsMerge.intro hsim')]
      exact Option.Rel.some ⟨(IsMerge.intro hsim).coherent ha.left_coherent hb.left_coherent,
        (IsMerge.intro hsim').coherent ha.right_coherent hb.right_coherent,
        shapeOfFields_merge_congr hleft hleft' hright hright' hours htheirs⟩
    · rw [TypeTree.merge?, TypeTree.merge?, if_neg hsim, if_neg (hsimilar ▸ hsim)]
      exact Option.Rel.none
  -- Only records are merged, and the shape tells which nodes are records.
  · rw [merge?_eq_none_of_isRecord hrecords, merge?_eq_none_of_isRecord]
    · exact Option.Rel.none
    · rwa [← ha.isRecord_iff, ← hb.isRecord_iff]

/-- Elements of the same shapes have the same shapes after they have been arranged. -/
theorem map_shape_arrange {kind : ElementKind} {trees others : List TypeTree}
    (h : List.Forall₂ (EqShape s) trees others) :
    (arrange s kind trees).map shape = (arrange s kind others).map shape := by
  have hdigest : ∀ t u, EqShape s t u → t.digest = u.digest :=
    fun _ _ h => congrArg Shape.digest h.shape_eq
  have hmap : ∀ {ts us : List TypeTree}, List.Forall₂ (EqShape s) ts us →
      ts.map shape = us.map shape :=
    fun h => (map_eq_of_forall₂ (h.imp fun _ _ h => h.shape_eq.symm)).symm
  have hmerged : List.Forall₂ (EqShape s) (mergeSimilar s.similarity (dropRepeated trees))
      (mergeSimilar s.similarity (dropRepeated others)) :=
    forall₂_mergeSimilar (fun _ _ _ _ ha hb => ha.merge? hb) hdigest (forall₂_dropSeen hdigest h)
  unfold arrange
  split
  · rw [map_shape_disambiguate, map_shape_disambiguate, hmap h]
  · rw [map_shape_disambiguate, map_shape_disambiguate]
    exact hmap hmerged

end Merging

end TypeTree

end TypeSketch
