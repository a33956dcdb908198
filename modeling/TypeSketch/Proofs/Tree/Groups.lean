import TypeSketch.Proofs.Tree.Collisions
import TypeSketch.Proofs.Tree.MergedShapes
import TypeSketch.Proofs.Tree.Numbering

/-!
# Groups of Merged Records

Which records one record of a sequence has been merged from, and what it keeps of them. The
records among the elements, one for each shape, fall into groups, and every group becomes one
record. Its fields are those of the group, each at its first appearance. A field is optional
if some record of the group lacks it, and it has one shape in all that have it. The record
is written in the functional syntax if one of its keys cannot name a field, and it is
documented as the first documented record of the group is. Nothing else happens to the
elements: those that are no records stay, and two groups that have become alike leave one
record.

Merging takes one element after another, and a record that has taken in some of them takes in
more. A merge only looks at the record that has grown so far, not at its group, so
`IsUnion` says of a profile and of fields what the group decides, and `IsUnion.merge` adds
one group to another. An element that is refused by one record goes on to the next one, so it
ends in one group only.

All this takes that digests do not collide. A merge asks for one digest of what two records
share, and of elements with one digest only the first one is left.

## Main definitions

* `TypeTree.IsUnion`: What a group decides about the profile and the fields of its record.
* `TypeTree.ComesOf`: The record of a group.
* `TypeTree.IsGrouping`: Elements and the groups that the kept records come of.

## Theorems

* `TypeTree.IsUnion.merge`: Two groups become one.
* `TypeTree.IsGrouping.merge`, `TypeTree.IsGrouping.concat`: An element goes into a group or
  is one.
* `TypeTree.exists_isGrouping_foldl_place`: All elements.
* `Inference.comesOf_of_node`: An inferred record is a group of its own.
* `Inference.groups_of_elements`: What becomes of the elements of a sequence.
-/

namespace TypeSketch

namespace TypeTree

open Naming

/-- What a record has besides its fields. -/
def profile? : TypeTree → Option RecordProfile
  | mapping _ _ (.record profile) _ _ _ => some profile
  | _ => none

/-- Whether there is a field of this name. -/
def HasName (fields : List (Value × TypeTree)) (name : String) : Prop :=
  ∃ f ∈ fields, f.1.keyText = name

/-- The documentation in the example of a node. -/
def docstring? (s : Strategies) (t : TypeTree) : Option String :=
  match t.exampleValue with
  | .mapping entries => Inference.doc? s.docKey entries
  | _ => none

/-- What a group of records decides about the profile and the fields of the record that is merged
    from them. -/
structure IsUnion (s : Strategies) (group : List TypeTree) (profile : RecordProfile)
    (fields : List (Value × TypeTree)) : Prop where
  group_ne : group ≠ []
  keys_eq : fields.map (·.1) = (firstsBy (·.1.keyText) (group.flatMap TypeTree.fields)).map (·.1)
  shape_eq : ∀ f ∈ fields, ∀ t ∈ group, ∀ g ∈ t.fields, g.1 = f.1 → g.2.shape = f.2.shape
  optional_iff : ∀ name, name ∈ profile.optionalFields ↔
    HasName fields name ∧ ∃ t ∈ group, ¬HasName t.fields name
  functional_iff : profile.functional = true ↔ ∃ f ∈ fields, isIdentifier f.1.keyText = false
  doc_eq : profile.doc = group.findSome? (docstring? s)

/-- A record that has been merged from a group. -/
def ComesOf (s : Strategies) (group : List TypeTree) (m : TypeTree) : Prop :=
  ∃ profile, m.profile? = some profile ∧ IsUnion s group profile m.fields

/-- The groups that the kept records come of. They make up the records among the elements, and
    each has its records in their order. All other elements are kept. -/
structure IsGrouping (s : Strategies) (elements kept : List TypeTree)
    (groups : List (List TypeTree)) : Prop where
  comesOf : List.Forall₂ (ComesOf s) groups (kept.filter (·.isRecord))
  perm : groups.flatten.Perm (elements.filter (·.isRecord))
  sublist : ∀ group ∈ groups, group.Sublist elements
  others_eq : kept.filter (!·.isRecord) = elements.filter (!·.isRecord)

variable {s : Strategies} {similarity : Nat}

section Unions

variable {group others : List TypeTree} {ours theirs : RecordProfile}
  {left right : List (Value × TypeTree)} {name : String}

theorem IsUnion.mem_names_iff (h : IsUnion s group ours left) :
    name ∈ (group.flatMap TypeTree.fields).map (·.1.keyText) ↔ HasName left name := by
  have hnames : HasName left name ↔ name ∈ (left.map (·.1)).map Value.keyText := by
    rw [List.map_map]
    exact List.mem_map.symm
  rw [hnames, h.keys_eq, List.map_map]
  exact mem_map_firstsBy.symm

/-- A record has a field if one of its group has. -/
theorem IsUnion.hasName_iff (h : IsUnion s group ours left) :
    HasName left name ↔ ∃ t ∈ group, HasName t.fields name := by
  rw [← h.mem_names_iff]
  simp only [HasName, List.mem_map, List.mem_flatMap]
  exact ⟨fun ⟨f, ⟨t, ht, hf⟩, hname⟩ => ⟨t, ht, f, hf, hname⟩,
    fun ⟨t, ht, f, hf, hname⟩ => ⟨f, ⟨t, ht, hf⟩, hname⟩⟩

/-- What no record of a group has is missing in one of them. -/
theorem IsUnion.exists_lacking (h : IsUnion s group ours left) (hname : ¬HasName left name) :
    ∃ t ∈ group, ¬HasName t.fields name := by
  rcases List.exists_mem_of_ne_nil group h.group_ne with ⟨t, ht⟩
  exact ⟨t, ht, fun hfield => hname (h.hasName_iff.mpr ⟨t, ht, hfield⟩)⟩

theorem exists_not_isIdentifier_iff : (∃ f ∈ left, isIdentifier f.1.keyText = false) ↔
    ∃ name, HasName left name ∧ isIdentifier name = false :=
  ⟨fun ⟨f, hf, hname⟩ => ⟨_, ⟨f, hf, rfl⟩, hname⟩, fun ⟨_, ⟨f, hf, heq⟩, hname⟩ => ⟨f, hf, heq ▸ hname⟩⟩

variable {ourName theirName : String} (hleft : Value.DistinctKeys left ∧ Value.TextKeys left)
  (hright : Value.DistinctKeys right ∧ Value.TextKeys right)

include hleft hright

theorem entry?_eq_none_iff {f : Value × TypeTree} (hf : f ∈ right) :
    Value.entry? left f.1 = none ↔ ¬HasName left f.1.keyText := by
  rw [← Option.not_isSome_iff_eq_none]
  exact not_congr (isSome_entry?_iff hleft.1 hleft.2 (hright.2 f hf))

theorem hasName_mergeFields : HasName (mergeFields ourName theirName left right) name ↔
    HasName left name ∨ HasName right name := by
  rw [mergeFields_eq_append hright.1]
  constructor
  · rintro ⟨f, hf, rfl⟩
    rcases List.mem_append.mp hf with hf | hf
    · exact Or.inl ⟨f, hf, rfl⟩
    · rcases mem_newFields.mp hf with ⟨g, hg, _, rfl⟩
      exact Or.inr ⟨g, hg, rfl⟩
  · intro h
    by_cases hours : HasName left name
    · rcases hours with ⟨f, hf, hname⟩
      exact ⟨f, List.mem_append_left _ hf, hname⟩
    -- A field that the second record alone has is a new one.
    · rcases h.resolve_left hours with ⟨g, hg, rfl⟩
      refine ⟨_, List.mem_append_right _ (mem_newFields.mpr ⟨g, hg, ?_, rfl⟩), rfl⟩
      exact (entry?_eq_none_iff hleft hright hg).mpr hours

/-- The keys of a merge are those of the fields of both groups, each at its first appearance. -/
theorem IsUnion.keys_merge (h : IsUnion s group ours left) (h' : IsUnion s others theirs right) :
    (mergeFields ourName theirName left right).map (·.1) =
      (firstsBy (·.1.keyText) ((group ++ others).flatMap TypeTree.fields)).map (·.1) := by
  have hnew : ∀ g ∈ right, (Value.entry? left g.1).isNone =
      decide (g.1.keyText ∉ (group.flatMap TypeTree.fields).map (·.1.keyText)) := by
    intro g hg
    rw [Bool.eq_iff_iff, Option.isNone_iff_eq_none, decide_eq_true_eq, h.mem_names_iff]
    exact entry?_eq_none_iff hleft hright hg
  rw [mergeFields_eq_append hright.1, List.map_append, List.flatMap_append, firstsBy_append,
    List.map_append, ← h.keys_eq, newFields, List.map_map, List.filter_congr hnew]
  -- Both sides are the keys of the second group without those of the first one.
  refine congrArg _ ?_
  have hfilter := congrArg (List.filter fun key : Value =>
    decide (key.keyText ∉ (group.flatMap TypeTree.fields).map (·.1.keyText))) h'.keys_eq
  rw [List.filter_map, List.filter_map] at hfilter
  exact hfilter

/-- A field of a merge has one shape wherever it is in one of the groups. -/
theorem IsUnion.shape_merge (h : IsUnion s group ours left) (h' : IsUnion s others theirs right)
    (hsimilar : areSimilar similarity left right = true)
    (hshared : ∀ f ∈ left, ∀ g ∈ right, f.2.digest = g.2.digest → f.2.shape = g.2.shape) :
    ∀ f ∈ mergeFields ourName theirName left right, ∀ t ∈ group ++ others, ∀ g ∈ t.fields,
      g.1 = f.1 → g.2.shape = f.2.shape := by
  rw [mergeFields_eq_append hright.1]
  intro f hf t ht g hg hkey
  rcases List.mem_append.mp hf with hf | hf
  · rcases List.mem_append.mp ht with ht | ht
    · exact h.shape_eq f hf t ht g hg hkey
    -- The second record has the field, too, and with the shape of the first one.
    · rcases h'.hasName_iff.mpr ⟨t, ht, g, hg, rfl⟩ with ⟨r, hr, hname⟩
      rw [hkey] at hname
      have hsame : r.1 = f.1 := Value.eq_of_keyText_eq (hright.2 r hr) (hleft.2 f hf) hname
      have hentry : Value.entry? right f.1 = some r.2 := by
        rw [Value.entry?_eq_some_iff_of_textKeys hright.1 hright.2, ← hsame]
        exact hr
      rw [hshared f hf r hr (digest_eq_of_shared hsimilar hf hentry)]
      exact h'.shape_eq r hr t ht g hg (hkey.trans hsame.symm)
  · rcases mem_newFields.mp hf with ⟨r, hr, hnone, rfl⟩
    rcases List.mem_append.mp ht with ht | ht
    -- The first group has no such field.
    · refine absurd (h.hasName_iff.mpr ⟨t, ht, g, hg, congrArg Value.keyText hkey⟩) ?_
      exact (entry?_eq_none_iff hleft hright hr).mp hnone
    · rw [shape_adopt]
      exact h'.shape_eq r hr t ht g hg hkey

/-- A field of a merge is optional if a record of one of the groups lacks it. -/
theorem IsUnion.optional_merge (h : IsUnion s group ours left) (h' : IsUnion s others theirs right)
    (name : String) :
    name ∈ (mergeProfiles ours theirs (fieldNames left) (fieldNames right)).optionalFields ↔
      HasName (mergeFields ourName theirName left right) name ∧
        ∃ t ∈ group ++ others, ¬HasName t.fields name := by
  have hlacking : (∃ t ∈ group ++ others, ¬HasName t.fields name) ↔
      (∃ t ∈ group, ¬HasName t.fields name) ∨ ∃ t ∈ others, ¬HasName t.fields name := by
    simp only [List.mem_append, or_and_right, exists_or]
  rw [mem_mergeProfiles, mem_fieldNames, mem_fieldNames, h.optional_iff, h'.optional_iff, hlacking,
    hasName_mergeFields hleft hright]
  constructor
  · rintro (⟨hname, hlack⟩ | ⟨hname, hlack⟩ | ⟨hname, hnone⟩ | ⟨hname, hnone⟩)
    · exact ⟨Or.inl hname, Or.inl hlack⟩
    · exact ⟨Or.inr hname, Or.inr hlack⟩
    -- A field of one record only is missing in the whole group of the other one.
    · exact ⟨Or.inl hname, Or.inr (h'.exists_lacking hnone)⟩
    · exact ⟨Or.inr hname, Or.inl (h.exists_lacking hnone)⟩
  · rintro ⟨hname, hlack⟩
    by_cases hours : HasName left name
    · by_cases htheirs : HasName right name
      · rcases hlack with hlack | hlack
        · exact Or.inl ⟨hours, hlack⟩
        · exact Or.inr (Or.inl ⟨htheirs, hlack⟩)
      · exact Or.inr (Or.inr (Or.inl ⟨hours, htheirs⟩))
    · exact Or.inr (Or.inr (Or.inr ⟨hname.resolve_left hours, hours⟩))

/-- What two groups decide about a merge. -/
theorem IsUnion.merge (h : IsUnion s group ours left) (h' : IsUnion s others theirs right)
    (hsimilar : areSimilar similarity left right = true)
    (hshared : ∀ f ∈ left, ∀ g ∈ right, f.2.digest = g.2.digest → f.2.shape = g.2.shape) :
    IsUnion s (group ++ others) (mergeProfiles ours theirs (fieldNames left) (fieldNames right))
      (mergeFields ourName theirName left right) where
  group_ne := fun hnil => h.group_ne (List.append_eq_nil_iff.mp hnil).1
  keys_eq := h.keys_merge hleft hright h'
  shape_eq := h.shape_merge hleft hright h' hsimilar hshared
  optional_iff := h.optional_merge hleft hright h'
  functional_iff := by
    rw [mergeProfiles, Bool.or_eq_true, h.functional_iff, h'.functional_iff]
    simp only [exists_not_isIdentifier_iff, hasName_mergeFields hleft hright, or_and_right, exists_or]
  doc_eq := by
    rw [mergeProfiles, h.doc_eq, h'.doc_eq, List.findSome?_append]
    cases group.findSome? (docstring? s) <;> rfl

end Unions

section Groupings

variable {shapes : List Shape} {t : TypeTree} {group others elements kept : List TypeTree}
  {groups : List (List TypeTree)}

theorem ComesOf.merge (hfree : Shape.CollisionFree shapes) {a b m : TypeTree}
    (h : ComesOf s group a) (h' : ComesOf s others b) (ha : IsKnown s shapes a)
    (hb : IsKnown s shapes b) (hm : IsMerge similarity a b m) : ComesOf s (group ++ others) m := by
  have hshared := fun c hc d hd => ha.shape_eq_of_digest_eq hfree hb (c := c) (d := d) hc hd
  rcases h with ⟨profile, hprofile, hunion⟩
  rcases h' with ⟨profile', hprofile', hunion'⟩
  cases hm with | intro hsimilar =>
  cases hprofile
  cases hprofile'
  rcases ha.coherent with _ | ⟨_, hdistinct, hfits, _, _⟩
  rcases hb.coherent with _ | ⟨_, hdistinct', hfits', _, _⟩
  exact ⟨_, rfl, hunion.merge ⟨hdistinct, hfits.textKeys⟩ ⟨hdistinct', hfits'.textKeys⟩ hunion'
    hsimilar fun f hf g hg => hshared _ (List.mem_map_of_mem hf) _ (List.mem_map_of_mem hg)⟩

theorem IsMerge.isRecord {a b m : TypeTree} (hm : IsMerge similarity a b m) :
    a.isRecord = true ∧ b.isRecord = true ∧ m.isRecord = true := by
  cases hm
  exact ⟨rfl, rfl, rfl⟩

theorem IsGrouping.sublist_concat (h : IsGrouping s elements kept groups) (t : TypeTree) :
    ∀ group ∈ groups, group.Sublist (elements ++ [t]) := fun group hgroup =>
  (h.sublist group hgroup).trans (List.sublist_append_left _ _)

/-- An element that is merged into a kept record goes into the group of that record. -/
theorem IsGrouping.merge (hfree : Shape.CollisionFree shapes) {before after : List TypeTree}
    {target merged : TypeTree} (h : IsGrouping s elements (before ++ target :: after) groups)
    (hm : IsMerge similarity target t merged) (htarget : IsKnown s shapes target)
    (ht : IsKnown s shapes t) (hself : ComesOf s [t] t) :
    ∃ groups', IsGrouping s (elements ++ [t]) (before ++ merged :: after) groups' := by
  rcases hm.isRecord with ⟨htargetRecord, hrecord, hmergedRecord⟩
  have hcomesOf := h.comesOf
  rw [List.filter_append, List.filter_cons_of_pos htargetRecord] at hcomesOf
  -- The target is made of one of the groups, and that group takes the new element.
  rcases exists_of_forall₂_append_cons hcomesOf with
    ⟨groupsBefore, group, groupsAfter, rfl, hbefore, hgroup, hafter⟩
  have hunion : ComesOf s (group ++ [t]) merged := hgroup.merge hfree hself htarget ht hm
  refine ⟨groupsBefore ++ (group ++ [t]) :: groupsAfter, ?_, ?_, ?_, ?_⟩
  · rw [List.filter_append, List.filter_cons_of_pos hmergedRecord]
    exact List.rel_append hbefore (List.Forall₂.cons hunion hafter)
  -- The element goes behind its group, and there it is as good as behind all groups.
  · rw [List.filter_append, List.filter_cons_of_pos hrecord, List.filter_nil]
    refine List.Perm.trans ?_ (h.perm.append_right [t])
    simp only [List.flatten_append, List.flatten_cons, List.append_assoc]
    exact (List.perm_append_comm.append_left _).append_left _
  · intro other hother
    rcases List.mem_append.mp hother with hother | hother
    · exact h.sublist_concat t other (List.mem_append_left _ hother)
    · rcases List.mem_cons.mp hother with rfl | hother
      · exact (h.sublist group (by simp)).append (List.Sublist.refl [t])
      · exact h.sublist_concat t other (List.mem_append_right _ (List.mem_cons_of_mem _ hother))
  · have hothers := h.others_eq
    rw [List.filter_append, List.filter_cons_of_neg (by simp [htargetRecord])] at hothers
    rw [List.filter_append, List.filter_cons_of_neg (by simp [hmergedRecord]), hothers,
      List.filter_append, List.filter_cons_of_neg (by simp [hrecord]), List.filter_nil,
      List.append_nil]

/-- An element that is kept behind the others is a group of its own, if it is a record. -/
theorem IsGrouping.concat (h : IsGrouping s elements kept groups)
    (hself : t.isRecord = true → ComesOf s [t] t) :
    ∃ groups', IsGrouping s (elements ++ [t]) (kept ++ [t]) groups' := by
  have hothers : (kept ++ [t]).filter (!·.isRecord) = (elements ++ [t]).filter (!·.isRecord) := by
    rw [List.filter_append, List.filter_append, h.others_eq]
  -- A record that is similar to none makes a group of its own.
  by_cases hrecord : t.isRecord = true
  · refine ⟨groups ++ [[t]], ?_, ?_, ?_, hothers⟩
    · rw [List.filter_append, List.filter_cons_of_pos hrecord, List.filter_nil]
      exact List.rel_append h.comesOf (List.Forall₂.cons (hself hrecord) List.Forall₂.nil)
    · rw [List.filter_append, List.filter_cons_of_pos hrecord, List.filter_nil, List.flatten_append]
      exact h.perm.append_right [t]
    · intro other hother
      rcases List.mem_append.mp hother with hother | hother
      · exact h.sublist_concat t other hother
      · rw [List.mem_singleton.mp hother]
        exact List.sublist_append_right elements [t]
  · refine ⟨groups, ?_, ?_, h.sublist_concat t, hothers⟩
    · rw [List.filter_append, List.filter_cons_of_neg hrecord, List.filter_nil, List.append_nil]
      exact h.comesOf
    · rw [List.filter_append, List.filter_cons_of_neg hrecord, List.filter_nil, List.append_nil]
      exact h.perm

/-- One more element. -/
theorem IsGrouping.exists_place (hfree : Shape.CollisionFree shapes)
    (h : IsGrouping s elements kept groups) (hkept : ∀ u ∈ kept, IsKnown s shapes u)
    (ht : IsKnown s shapes t) (hself : t.isRecord = true → ComesOf s [t] t) :
    ∃ groups', IsGrouping s (elements ++ [t]) (place similarity t kept) groups' := by
  rcases place_cases similarity t kept with
    ⟨before, target, after, merged, rfl, _, hm, hresult⟩ | ⟨_, hresult⟩
  · rw [hresult]
    exact h.merge hfree hm (hkept target (by simp)) ht (hself hm.isRecord.2.1)
  · rw [hresult]
    exact h.concat hself

/-- All elements, one after another. -/
theorem exists_isGrouping_foldl_place (similarity : Nat) (hfree : Shape.CollisionFree shapes)
    (helements : ∀ t ∈ elements, IsKnown s shapes t)
    (hself : ∀ t ∈ elements, t.isRecord = true → ComesOf s [t] t) :
    ∃ groups, IsGrouping s elements
      (elements.foldl (fun kept t => place similarity t kept) []) groups := by
  induction elements using List.reverseRecOn with
  | nil => exact ⟨[], List.Forall₂.nil, List.Perm.nil, fun _ h => absurd h List.not_mem_nil, rfl⟩
  | append_singleton elements t ih =>
    have hlast : t ∈ elements ++ [t] := List.mem_append_right _ List.mem_cons_self
    have hrest : ∀ u ∈ elements, IsKnown s shapes u := fun u hu =>
      helements u (List.mem_append_left _ hu)
    rcases ih hrest fun u hu => hself u (List.mem_append_left _ hu) with ⟨groups, hgroups⟩
    have hkept : ∀ u ∈ elements.foldl (fun kept t => place similarity t kept) [],
        IsKnown s shapes u :=
      forall_mem_foldl_place (fun _ _ _ ha hb hm => ha.merge hfree hb hm) hrest
        fun _ h => absurd h List.not_mem_nil
    rw [List.foldl_append, List.foldl_cons, List.foldl_nil]
    exact hgroups.exists_place hfree hkept (helements t hlast) (hself t hlast)

/-- Trees whose digests do not collide are dropped by their shapes. -/
theorem dropRepeated_eq_firstsBy_shape {trees : List TypeTree}
    (hfree : Shape.CollisionFree (trees.map shape)) : dropRepeated trees = firstsBy shape trees := by
  rw [dropRepeated_eq_firstsBy]
  exact firstsBy_congr fun t ht u hu =>
    ⟨hfree _ (List.mem_map_of_mem ht) _ (List.mem_map_of_mem hu), congrArg Shape.digest⟩

/-- Whether a tree is a record can be asked before or after repeated shapes have been dropped. -/
theorem filter_dropRepeated (p : Bool → Bool) {trees : List TypeTree}
    (hfree : Shape.CollisionFree (trees.map shape)) (h : ∀ t ∈ trees, Coherent s t) :
    (dropRepeated trees).filter (fun t => p t.isRecord) =
      firstsBy shape (trees.filter fun t => p t.isRecord) := by
  rw [dropRepeated_eq_firstsBy_shape hfree]
  refine filter_firstsBy fun t ht u hu hshape => congrArg p ?_
  rw [Bool.eq_iff_iff]
  exact EqShape.isRecord_iff ⟨h t ht, h u hu, hshape⟩

/-- What becomes of the first elements of each shape when similar records are merged. -/
theorem exists_groups_mergeSimilar (hfree : Shape.CollisionFree shapes) {kind : ElementKind}
    (hkind : kind ≠ .tuple .fixed) {trees : List TypeTree} (htrees : ∀ t ∈ trees, IsKnown s shapes t)
    (hmem : ∀ t ∈ trees, t.shape ∈ shapes)
    (hgathered : ∀ t ∈ gathered s kind trees, t.shape ∈ shapes)
    (hself : ∀ t ∈ trees, t.isRecord = true → ComesOf s [t] t) : ∃ groups merged,
      groups.flatten.Perm ((firstsBy shape trees).filter (·.isRecord)) ∧
      (∀ group ∈ groups, group.Sublist (firstsBy shape trees)) ∧
      List.Forall₂ (ComesOf s) groups merged ∧
      (mergeSimilar s.similarity (dropRepeated trees)).filter (·.isRecord) =
        firstsBy shape merged ∧
      (mergeSimilar s.similarity (dropRepeated trees)).filter (!·.isRecord) =
        (firstsBy shape trees).filter (!·.isRecord) := by
  have hdrop : dropRepeated trees = firstsBy shape trees :=
    dropRepeated_eq_firstsBy_shape (hfree.mono (List.forall_mem_map.mpr hmem))
  have hfirst : ∀ t ∈ firstsBy shape trees, t ∈ trees := fun t ht =>
    (firstsBy_sublist shape trees).subset ht
  have hknown : ∀ t ∈ gathered s kind trees, IsKnown s shapes t :=
    forall_mem_gathered (fun _ _ _ ha hb hm => ha.merge hfree hb hm) htrees
  rw [gathered_of_ne_fixed hkind, hdrop] at hgathered hknown
  have hplaced := fun t ht => (hknown t ht).coherent
  have hdigests := hfree.mono (List.forall_mem_map.mpr hgathered)
  rcases exists_isGrouping_foldl_place s.similarity hfree (fun t ht => htrees t (hfirst t ht))
      fun t ht => hself t (hfirst t ht) with
    ⟨groups, hgroups⟩
  rw [mergeSimilar, hdrop]
  refine ⟨groups, _, hgroups.perm, hgroups.sublist, hgroups.comesOf, ?_, ?_⟩
  · exact filter_dropRepeated id hdigests hplaced
  -- The elements that are no records have been of different shapes from the start.
  · refine (filter_dropRepeated (!·) hdigests hplaced).trans ?_
    rw [hgroups.others_eq]
    exact firstsBy_eq_self ((List.filter_sublist.map shape).nodup (nodup_map_firstsBy shape trees))

end Groupings

end TypeTree

namespace Inference

open TypeTree Naming

variable {run : Inference} {name : String}

/-- A record is written in the functional syntax if one of its fields has such a key. -/
theorem functional_iff_of_keys {entries : List (Value × Value)} {children : List (Value × TypeTree)}
    (htexts : Value.TextKeys children) (hkeys : children.map (·.1) = entries.map (·.1)) :
    (entries.any fun (key, _) => !(key.text?.any isIdentifier)) = true ↔
      ∃ f ∈ distinctFields children, isIdentifier f.1.keyText = false := by
  -- The test looks at texts, and all keys of a record are texts.
  have hflag : ∀ {key : Value}, (∃ text, key = .str text) →
      ((!(key.text?.any isIdentifier)) = true ↔ isIdentifier key.keyText = false) := by
    rintro _ ⟨text, rfl⟩
    rw [Value.keyText_str, Bool.not_eq_true']
    rfl
  rw [List.any_eq_true]
  constructor
  -- A key may stand in several entries, and the first one of them is a field.
  · rintro ⟨e, he, hfunctional⟩
    have hmem : e.1 ∈ children.map (·.1) := by
      rw [hkeys]
      exact List.mem_map_of_mem he
    rcases List.mem_map.mp hmem with ⟨c, hc, hkey⟩
    rcases exists_mem_distinctFields htexts hc with ⟨f, hf, heq⟩
    refine ⟨f, hf, ?_⟩
    rw [heq, ← hflag (htexts c hc), hkey]
    exact hfunctional
  · rintro ⟨f, hf, hfunctional⟩
    rcases (mem_distinctFields hf).1 with ⟨c, hc, hkey⟩
    have hmem : c.1 ∈ entries.map (·.1) := by
      rw [← hkeys]
      exact List.mem_map_of_mem hc
    rcases List.mem_map.mp hmem with ⟨e, he, heq⟩
    refine ⟨e, he, ?_⟩
    rw [← hkey, ← hflag (htexts c hc), ← heq] at hfunctional
    exact hfunctional

/-- An inferred record is a group of its own. -/
theorem comesOf_of_node {v : Value} {t : TypeTree} (h : run.node name v = .ok t)
    (hrecord : t.isRecord = true) : ComesOf run.strategies [t] t := by
  have hcoherent := coherent_of_node h
  rcases isNode_of_node h with _ | _ | @⟨entries, children, _, hfields⟩
  · contradiction
  · contradiction
  · by_cases hstyle : run.strategies.dictStyle = .typedDict ∧ hasTextKeys entries = true
    · have hform : mappingForm run.strategies entries = .record {
          functional := entries.any fun (key, _) => !(key.text?.any isIdentifier)
          doc := doc? run.strategies.docKey entries } := if_pos hstyle
      rw [hform] at hcoherent ⊢
      rcases hcoherent with _ | ⟨_, hdistinct, hfits, _, _⟩
      have hnodup := Value.nodup_keyTexts hdistinct hfits.textKeys
      have hkeys := keys_of_isField hfields
      have htexts : Value.TextKeys children := by
        intro c hc
        have hmem : c.1 ∈ entries.map (·.1) := by
          rw [← hkeys]
          exact List.mem_map_of_mem hc
        rcases List.mem_map.mp hmem with ⟨e, he, heq⟩
        rw [← heq]
        exact hasTextKeys_iff.mp hstyle.2 e he
      refine ⟨_, rfl, List.cons_ne_nil _ _, ?_, ?_, fun name => ?_, ?_, ?_⟩
      -- No name stands twice among the fields of one record, so all are first ones.
      · rw [List.flatMap_singleton]
        exact (congrArg _ (firstsBy_eq_self hnodup)).symm
      · intro f hf t ht g hg hkey
        rw [List.mem_singleton.mp ht] at hg
        rw [List.inj_on_of_nodup_map hnodup hg hf (congrArg Value.keyText hkey)]
      -- Nothing is optional yet, and the only record of the group lacks none of its fields.
      · refine iff_of_false (NameSet.not_mem_empty name) ?_
        rintro ⟨hname, t, ht, hlacking⟩
        rw [List.mem_singleton.mp ht] at hlacking
        exact hlacking hname
      · exact functional_iff_of_keys htexts hkeys
      · rw [List.findSome?_singleton]
        rfl
    · have hform : mappingForm run.strategies entries = .generic := if_neg hstyle
      rw [hform] at hrecord
      contradiction

/-- What becomes of the elements of a sequence, except in a tuple of fixed size. Records come of
    groups that the records among the elements fall into, of each shape the first one. A group is
    lost only if a record of an earlier one has the shape of its record. The elements that are
    no records are kept as they are, and in the end all are numbered. -/
theorem groups_of_elements {kind : SequenceKind} {items : List Value} {v : Value}
    {elementKind : ElementKind} {height : Nat} {shape : Shape} {elements : List TypeTree}
    (hfree : run.CollisionFree name (.sequence kind items))
    (h : run.node name (.sequence kind items) = .ok (.sequence name v elementKind height shape elements))
    (hkind : elementKind ≠ .tuple .fixed) :
    ∃ trees kept groups merged,
      List.Forall₂ (fun item t => run.child name (.element item) item = .ok t) items trees ∧
      elements = disambiguate run.strategies kept ∧
      groups.flatten.Perm ((firstsBy TypeTree.shape trees).filter (·.isRecord)) ∧
      (∀ group ∈ groups, group.Sublist (firstsBy TypeTree.shape trees)) ∧
      List.Forall₂ (ComesOf run.strategies) groups merged ∧
      kept.filter (·.isRecord) = firstsBy TypeTree.shape merged ∧
      kept.filter (!·.isRecord) = (firstsBy TypeTree.shape trees).filter (!·.isRecord) := by
  cases isNode_of_node h with
  | @sequence _ _ rule _ trees hget hrule hchildren =>
    -- The nodes made for the elements are among those that are assumed to be free of collisions.
    have hgiven : ∀ t ∈ trees, t.shape ∈ (run.made name (.sequence kind items)).map TypeTree.shape ∧
        IsKnown run.strategies ((run.made name (.sequence kind items)).map TypeTree.shape) t ∧
        (t.isRecord = true → ComesOf run.strategies [t] t) := by
      intro t ht
      rcases exists_mem_left_of_forall₂ hchildren ht with ⟨item, hitem, hchild⟩
      have hnode := (child_eq_ok_iff.mp hchild).1
      have hmade : ∀ u ∈ run.made (childName name (.element item)) item,
          u.shape ∈ (run.made name (.sequence kind items)).map TypeTree.shape :=
        fun u hu => List.mem_map_of_mem (mem_made_of_item hitem hu)
      exact ⟨hmade t (mem_made_of_node hnode (mem_nodes_self t)), isKnown_of_node hfree hmade hnode,
        comesOf_of_node hnode⟩
    rcases exists_groups_mergeSimilar hfree hkind (fun t ht => (hgiven t ht).2.1)
        (fun t ht => (hgiven t ht).1)
        (fun t ht => List.mem_map_of_mem (mem_made_of_gathered hget hrule hchildren ht))
        fun t ht => (hgiven t ht).2.2 with
      ⟨groups, merged, hperm, hsublist, hcomesOf, hrecords, hothers⟩
    exact ⟨trees, _, groups, merged, hchildren, arrange_of_ne_fixed hkind, hperm, hsublist, hcomesOf,
      hrecords, hothers⟩

/-- Two rows, of which the second lacks a field, become one. -/
theorem groups_of_elements_rows : ∃ v height shape elements groups merged,
    Inference.node {} "L" (.sequence .list [.mapping [(.str "a", .int 1), (.str "b", .int 1)],
      .mapping [(.str "a", .int 1)]]) = .ok (.sequence "L" v .list height shape elements) ∧
    elements.length = 1 ∧ List.Forall₂ (ComesOf {}) groups merged ∧ groups.flatten.length = 2 := by
  have h : Inference.node {} "L" (.sequence .list [.mapping [(.str "a", .int 1), (.str "b", .int 1)],
      .mapping [(.str "a", .int 1)]]) = .ok (.sequence "L" _ .list _ _ _) := rfl
  rcases groups_of_elements (by decide +kernel) h (by decide) with
    ⟨trees, kept, groups, merged, hchildren, _, hperm, _, hcomesOf, _⟩
  refine ⟨_, _, _, _, groups, merged, h, by decide +kernel, hcomesOf, ?_⟩
  -- The two rows are of different shapes.
  rw [← elementNodes_eq_ok_iff] at hchildren
  rw [hperm.length_eq]
  cases hchildren
  decide +kernel

end Inference

end TypeSketch
