import Mathlib.Data.Finset.Card
import Mathlib.Data.List.Pairwise
import TypeSketch.Proofs.Names.Renaming
import TypeSketch.Proofs.Render.Permuted
import TypeSketch.Proofs.Tree.Groups

/-!
# What Merging Leaves

Whether records are left among the elements of a sequence that could still be merged. Two
records meet the rule for merging if a field that both have has one digest in them, and the
shared fields are a certain part of all of their fields. The rule does not depend on which
of the two records comes first.

Elements are merged in one pass, and an element is tried on each kept one only when it comes.
Then it meets the rule with none of those it is kept behind. But they can take in more, and
so can it, and what they have become is not tried again. So two kept records meet the rule
only if something has been merged into one of them after the later one was kept. The record
`b` is kept beside the record `a`, for example, and a record with both fields that comes next
is merged into `a`.

## Main definitions

* `TypeTree.MeetsRule`: Whether two records may be merged.
* `TypeTree.MergesTo`: The record that elements have been merged to, one after another.
* `TypeTree.IsHistory`: Elements, and the kept ones with what has been merged into each.

## Theorems

* `TypeTree.exists_isMerge_iff`: Records with different digests are merged by the rule.
* `TypeTree.mergeSimilar_eq_self_iff`: When another pass changes nothing.
* `TypeTree.IsHistory.merge`, `TypeTree.IsHistory.concat`: One element more.
* `TypeTree.exists_isHistory`, `TypeTree.exists_parts_arrange`: All elements.
* `Inference.not_meetsRule_of_elements`: Which records of a sequence do not meet the rule.
-/

namespace TypeSketch

namespace TypeTree

/-- The names of the fields. -/
def nameSet (t : TypeTree) : Finset String := (t.fields.map (·.1.keyText)).toFinset

/-- Two records may be merged if a field of both has one digest, and if so many percent of all
    fields are fields of both. -/
def MeetsRule (similarity : Nat) (a b : TypeTree) : Prop :=
  (a.isRecord = true ∧ b.isRecord = true) ∧
    (∀ f ∈ a.fields, ∀ g ∈ b.fields, f.1.keyText = g.1.keyText → f.2.digest = g.2.digest) ∧
    similarity * (a.nameSet ∪ b.nameSet).card ≤ (a.nameSet ∩ b.nameSet).card * 100

variable {s : Strategies} {similarity : Nat}

section Rule

variable {a b : TypeTree}

theorem MeetsRule.symm (h : MeetsRule similarity a b) : MeetsRule similarity b a := by
  rcases h with ⟨hrecords, hdigests, hcount⟩
  refine ⟨hrecords.symm, fun f hf g hg hname => (hdigests g hg f hf hname.symm).symm, ?_⟩
  rwa [Finset.union_comm, Finset.inter_comm]

theorem meetsRule_comm : MeetsRule similarity a b ↔ MeetsRule similarity b a :=
  ⟨MeetsRule.symm, MeetsRule.symm⟩

theorem nameSet_rename (t : TypeTree) (newName : String) : (t.rename newName).nameSet = t.nameSet := by
  rw [nameSet, fields_rename, List.map_map]
  rfl

/-- The rule does not look at names of types. -/
theorem meetsRule_rename_iff {newName : String} :
    MeetsRule similarity (a.rename newName) b ↔ MeetsRule similarity a b := by
  simp only [MeetsRule, fields_rename, List.forall_mem_map, digest_followRename, nameSet_rename,
    isRecord_rename]

theorem IsNumbered.meetsRule_iff {a' b' : TypeTree} (ha : IsNumbered s a a') (hb : IsNumbered s b b') :
    MeetsRule similarity a' b' ↔ MeetsRule similarity a b := by
  have hfirst : ∀ {t t' u : TypeTree}, IsNumbered s t t' →
      (MeetsRule similarity t' u ↔ MeetsRule similarity t u) := by
    rintro t t' u (rfl | ⟨_, _, rfl⟩)
    · exact Iff.rfl
    · exact meetsRule_rename_iff
  rw [hfirst ha, meetsRule_comm, hfirst hb, meetsRule_comm]

/-- As many fields are shared as there are names of both. -/
theorem length_sharedFields_eq_card {left right : List (Value × TypeTree)}
    (hleft : Value.DistinctKeys left ∧ Value.TextKeys left)
    (hright : Value.DistinctKeys right ∧ Value.TextKeys right) :
    (sharedFields left right).length =
      ((left.map (·.1.keyText)).toFinset ∩ (right.map (·.1.keyText)).toFinset).card := by
  -- A field is shared if its name is among those of the other record.
  have hshared : ∀ f ∈ left, ((Value.entry? right f.1).map (f.2, ·)).isSome = true ↔
      decide (f.1.keyText ∈ (right.map (·.1.keyText)).toFinset) = true := by
    intro f hf
    rw [Option.isSome_map, isSome_entry?_iff hright.1 hright.2 (hleft.2 f hf), decide_eq_true_eq,
      List.mem_toFinset, List.mem_map]
  have hnodup := (Value.nodup_keyTexts hleft.1 hleft.2).filter
    fun name => decide (name ∈ (right.map (·.1.keyText)).toFinset)
  rw [← Finset.filter_mem_eq_inter]
  calc (sharedFields left right).length
      = left.countP fun f => decide (f.1.keyText ∈ (right.map (·.1.keyText)).toFinset) := by
        rw [sharedFields, List.length_filterMap_eq_countP]
        exact List.countP_congr hshared
    _ = ((left.map (·.1.keyText)).filter
          fun name => decide (name ∈ (right.map (·.1.keyText)).toFinset)).length := by
        rw [← List.countP_eq_length_filter, List.countP_map]
        rfl
    _ = _ := by
        rw [← List.toFinset_card_of_nodup hnodup, List.toFinset_filter]
        simp only [decide_eq_true_eq]

/-- What similarity compares are the names and digests of fields. -/
theorem areSimilar_iff_card {left right : List (Value × TypeTree)}
    (hleft : Value.DistinctKeys left ∧ Value.TextKeys left)
    (hright : Value.DistinctKeys right ∧ Value.TextKeys right) (hne : left ≠ [] ∨ right ≠ []) :
    areSimilar similarity left right = true ↔
      (∀ f ∈ left, ∀ g ∈ right, f.1.keyText = g.1.keyText → f.2.digest = g.2.digest) ∧
        similarity *
            ((left.map (·.1.keyText)).toFinset ∪ (right.map (·.1.keyText)).toFinset).card ≤
          ((left.map (·.1.keyText)).toFinset ∩ (right.map (·.1.keyText)).toFinset).card * 100 := by
  have hagree := @sharedFields_agree_iff {} {} left right hleft.2 hright.1 hright.2
  have hrows : (∀ row ∈ sortedFields {} left, ∀ other ∈ sortedFields {} right,
        row.1.1 = other.1.1 → row.2.digest = other.2.digest) ↔
      ∀ f ∈ left, ∀ g ∈ right, f.1.keyText = g.1.keyText → f.2.digest = g.2.digest := by
    constructor
    · intro h f hf g hg
      exact h _ (mem_sortedFields.mpr ⟨f, hf, rfl⟩) _ (mem_sortedFields.mpr ⟨g, hg, rfl⟩)
    · intro h row hrow other hother
      rcases mem_sortedFields.mp hrow with ⟨f, hf, rfl⟩
      rcases mem_sortedFields.mp hother with ⟨g, hg, rfl⟩
      exact h f hf g hg
  -- The number of all fields is that of the names in the union.
  have hcard := Finset.card_union (left.map (·.1.keyText)).toFinset (right.map (·.1.keyText)).toFinset
  rw [List.toFinset_card_of_nodup (Value.nodup_keyTexts hleft.1 hleft.2),
    List.toFinset_card_of_nodup (Value.nodup_keyTexts hright.1 hright.2), List.length_map,
    List.length_map, ← length_sharedFields_eq_card hleft hright] at hcard
  -- Two records without any fields would be asked for a share of nothing.
  have hpos : 0 < ((left.map (·.1.keyText)).toFinset ∪ (right.map (·.1.keyText)).toFinset).card := by
    rcases hne with hne | hne
    · rcases List.exists_mem_of_ne_nil left hne with ⟨f, hf⟩
      exact Finset.card_pos.mpr
        ⟨f.1.keyText, Finset.mem_union_left _ (List.mem_toFinset.mpr (List.mem_map_of_mem hf))⟩
    · rcases List.exists_mem_of_ne_nil right hne with ⟨f, hf⟩
      exact Finset.card_pos.mpr
        ⟨f.1.keyText, Finset.mem_union_right _ (List.mem_toFinset.mpr (List.mem_map_of_mem hf))⟩
  rw [areSimilar, Bool.and_eq_true, Bool.and_eq_true, hagree, hrows, decide_eq_true_eq,
    decide_eq_true_eq, ← hcard, ← length_sharedFields_eq_card hleft hright, and_assoc,
    and_iff_right hpos]

/-- Records with different digests are merged exactly if they meet the rule. -/
theorem exists_isMerge_iff (ha : Coherent s a) (hb : Coherent s b) (hne : a.digest ≠ b.digest) :
    (∃ m, IsMerge similarity a b m) ↔ MeetsRule similarity a b := by
  by_cases hrecords : a.isRecord = true ∧ b.isRecord = true
  · rcases exists_eq_of_isRecord hrecords.1 with ⟨name, v, ours, height, shape, left, rfl⟩
    rcases exists_eq_of_isRecord hrecords.2 with ⟨theirName, w, theirs, _, _, right, rfl⟩
    rcases ha with _ | ⟨_, hdistinct, hfits, _, hshape⟩
    rcases hb with _ | ⟨_, hdistinct', hfits', _, hshape'⟩
    -- There are fields to compare, because all records without fields have one shape.
    have hfields : left ≠ [] ∨ right ≠ [] := by
      by_contra hnone
      rw [not_or, not_not, not_not] at hnone
      refine hne (congrArg Shape.digest ?_)
      rw [TypeTree.shape, TypeTree.shape, hshape, hshape', hnone.1, hnone.2]
      rfl
    have hiff : areSimilar similarity left right = true ↔ _ :=
      areSimilar_iff_card ⟨hdistinct, hfits.textKeys⟩ ⟨hdistinct', hfits'.textKeys⟩ hfields
    constructor
    · rintro ⟨m, ⟨hsimilar⟩⟩
      exact ⟨hrecords, hiff.mp hsimilar⟩
    · rintro ⟨_, hrule⟩
      exact ⟨_, .intro (hiff.mpr hrule)⟩
  -- Both the merge and the rule ask for two records.
  · refine iff_of_false ?_ fun h => hrecords h.1
    rintro ⟨_, hm⟩
    exact hrecords ⟨hm.isRecord.1, hm.isRecord.2.1⟩

theorem merge?_eq_none_iff (ha : Coherent s a) (hb : Coherent s b) (hne : a.digest ≠ b.digest) :
    a.merge? similarity b = none ↔ ¬MeetsRule similarity a b := by
  rw [← exists_isMerge_iff ha hb hne]
  constructor
  · rintro hnone ⟨m, hm⟩
    rw [merge?_eq_some_iff.mpr hm] at hnone
    contradiction
  · intro hnone
    cases hmerge : a.merge? similarity b with
    | none => rfl
    | some m => exact absurd ⟨m, merge?_eq_some_iff.mp hmerge⟩ hnone

end Rule

section Passes

variable {trees : List TypeTree}

theorem length_foldl_place_le (similarity : Nat) (trees : List TypeTree) :
    (trees.foldl (fun kept t => place similarity t kept) []).length ≤ trees.length := by
  induction trees using List.reverseRecOn with
  | nil => exact Nat.le_refl 0
  | append_singleton trees t ih =>
    rw [List.foldl_append, List.foldl_cons, List.foldl_nil, List.length_append, List.length_singleton]
    rcases place_cases similarity t (trees.foldl (fun kept t => place similarity t kept) []) with
      ⟨before, target, after, merged, hkept, _, _, hresult⟩ | ⟨_, hresult⟩
    · rw [hkept, List.length_append, List.length_cons] at ih
      rw [hresult, List.length_append, List.length_cons]
      omega
    · rw [hresult, List.length_append, List.length_singleton]
      omega

/-- If as many elements are kept as there are, none has been merged into another. -/
theorem pairwise_of_length_foldl_place
    (h : (trees.foldl (fun kept t => place similarity t kept) []).length = trees.length) :
    trees.foldl (fun kept t => place similarity t kept) [] = trees ∧
      trees.Pairwise fun a b => a.merge? similarity b = none := by
  induction trees using List.reverseRecOn with
  | nil => exact ⟨rfl, List.Pairwise.nil⟩
  | append_singleton trees t ih =>
    have hle := length_foldl_place_le similarity trees
    rw [List.foldl_append, List.foldl_cons, List.foldl_nil, List.length_append,
      List.length_singleton] at h
    rw [List.foldl_append, List.foldl_cons, List.foldl_nil]
    rcases place_cases similarity t (trees.foldl (fun kept t => place similarity t kept) []) with
      ⟨before, target, after, merged, hkept, _, _, hresult⟩ | ⟨hnone, hresult⟩
    -- A merge leaves no more elements than there were before, so there was none.
    · rw [hkept, List.length_append, List.length_cons] at hle
      rw [hresult, List.length_append, List.length_cons] at h
      omega
    · rw [hresult, List.length_append, List.length_singleton, Nat.add_right_cancel_iff] at h
      rcases ih h with ⟨hkept, hpairwise⟩
      rw [hkept] at hnone hresult
      refine ⟨by rw [hkept, hresult], List.pairwise_append.mpr ⟨hpairwise, by simp, ?_⟩⟩
      intro a ha b hb
      rw [List.mem_singleton.mp hb]
      exact hnone a ha

/-- Another pass over elements with different digests changes nothing exactly if no two of them
    meet the rule. -/
theorem mergeSimilar_eq_self_iff (htrees : ∀ t ∈ trees, Coherent s t)
    (hnodup : (trees.map digest).Nodup) :
    mergeSimilar similarity trees = trees ↔ trees.Pairwise fun a b => ¬MeetsRule similarity a b := by
  constructor
  · intro h
    have hdropped := (firstsBy_sublist digest
      (trees.foldl (fun kept t => place similarity t kept) [])).length_le
    rw [← dropRepeated_eq_firstsBy, ← mergeSimilar, h] at hdropped
    -- Neither merging nor dropping has made the list shorter, so nothing has been merged.
    have hlength := Nat.le_antisymm (length_foldl_place_le similarity trees) hdropped
    rw [List.Nodup, List.pairwise_map] at hnodup
    refine List.Pairwise.imp_of_mem ?_ ((pairwise_of_length_foldl_place hlength).2.and hnodup)
    rintro a b ha hb ⟨hnone, hne⟩
    exact (merge?_eq_none_iff (htrees a ha) (htrees b hb) hne).mp hnone
  · intro h
    have hsymm : Std.Symm fun a b : TypeTree => ¬MeetsRule similarity a b :=
      ⟨fun a b hab hba => hab hba.symm⟩
    refine mergeSimilar_eq_self hnodup fun t ht u hu hne => ?_
    refine (merge?_eq_none_iff (htrees t ht) (htrees u hu) hne).mpr (h.forall ht hu ?_)
    exact fun heq => hne (congrArg digest heq)

end Passes

section Histories

/-- The record that elements have been merged to, one after another. -/
inductive MergesTo (similarity : Nat) : List TypeTree → TypeTree → Prop
  | single (t : TypeTree) : MergesTo similarity [t] t
  | merge {group : List TypeTree} {a t m : TypeTree} (grown : MergesTo similarity group a)
    (merged : IsMerge similarity a t m) : MergesTo similarity (group ++ [t]) m

theorem MergesTo.ne_nil {group : List TypeTree} {m : TypeTree} (h : MergesTo similarity group m) :
    group ≠ [] := by
  cases h with
  | single => exact List.cons_ne_nil _ []
  | merge _ _ => exact List.append_ne_nil_of_right_ne_nil _ (List.cons_ne_nil _ [])

/-- What has become of elements, with the groups that the kept ones have been merged from. Of two
    kept ones the first has refused the second if nothing has been merged into the second, and
    into the first nothing that comes behind the second. -/
structure IsHistory (similarity : Nat) (elements : List TypeTree)
    (parts : List (List TypeTree × TypeTree)) : Prop where
  mergesTo : ∀ p ∈ parts, MergesTo similarity p.1 p.2
  sublist : ∀ p ∈ parts, p.1.Sublist elements
  refused : parts.Pairwise fun p q => ∀ t, q.1 = [t] →
    (∀ u ∈ p.1.tail, [u, t].Sublist elements) → p.2.merge? similarity q.2 = none

variable {elements : List TypeTree} {parts : List (List TypeTree × TypeTree)}

/-- Only the last element can be the last one of a list that goes beyond the others. -/
theorem sublist_of_sublist_concat {front : List TypeTree} {t u : TypeTree} (hne : u ≠ t)
    (h : (front ++ [u]).Sublist (elements ++ [t])) : (front ++ [u]).Sublist elements := by
  rw [← List.reverse_sublist] at h ⊢
  rw [List.reverse_append, List.reverse_append] at h
  rw [List.reverse_append]
  rcases List.cons_sublist_cons'.mp h with h | ⟨heq, _⟩
  · exact h
  · exact absurd heq hne

variable {t : TypeTree}

/-- Before an element came, the same has been refused as after it. -/
theorem IsHistory.refused_concat (h : IsHistory similarity elements parts) (ht : t ∉ elements) :
    parts.Pairwise fun p q => ∀ u, q.1 = [u] →
      (∀ w ∈ p.1.tail, [w, u].Sublist (elements ++ [t])) → p.2.merge? similarity q.2 = none := by
  refine h.refused.imp_of_mem fun {p q} _ hq hrefused u hu hbefore => hrefused u hu fun w hw => ?_
  have hmem : u ∈ elements := (h.sublist q hq).subset (by rw [hu]; exact List.mem_cons_self)
  have hne : u ≠ t := fun heq => ht (heq ▸ hmem)
  exact @sublist_of_sublist_concat elements [w] t u hne (hbefore w hw)

/-- An element is merged into a kept one. -/
theorem IsHistory.merge {front back : List (List TypeTree × TypeTree)} {group : List TypeTree}
    {target merged : TypeTree} (h : IsHistory similarity elements (front ++ (group, target) :: back))
    (ht : t ∉ elements) (hm : IsMerge similarity target t merged) :
    IsHistory similarity (elements ++ [t]) (front ++ (group ++ [t], merged) :: back) := by
  have hmem : (group, target) ∈ front ++ (group, target) :: back := by simp
  have hgroup : MergesTo similarity group target := h.mergesTo _ hmem
  have hother : ∀ p ∈ front ++ (group ++ [t], merged) :: back, p ≠ (group ++ [t], merged) →
      p ∈ front ++ (group, target) :: back := by
    intro p hp hne
    rcases List.mem_append.mp hp with hp | hp
    · exact List.mem_append_left _ hp
    · exact List.mem_append_right _ (List.mem_cons_of_mem _ ((List.mem_cons.mp hp).resolve_left hne))
  have hrefused := h.refused_concat ht
  rw [List.pairwise_append, List.pairwise_cons] at hrefused
  rcases hrefused with ⟨hfront, ⟨_, hback⟩, hacross⟩
  -- Only the part that was merged has changed, and the others keep what they had.
  refine ⟨fun p hp => ?_, fun p hp => ?_, List.pairwise_append.mpr
    ⟨hfront, List.pairwise_cons.mpr ⟨?_, hback⟩, ?_⟩⟩
  · by_cases hp' : p = (group ++ [t], merged)
    · rw [hp']
      exact hgroup.merge hm
    · exact h.mergesTo p (hother p hp hp')
  · by_cases hp' : p = (group ++ [t], merged)
    · rw [hp']
      exact (h.sublist _ hmem).append (List.Sublist.refl [t])
    · exact (h.sublist p (hother p hp hp')).trans (List.sublist_append_left elements [t])
  -- What has just been merged comes behind all that has been kept already.
  · intro q hq u hu hbefore
    have hu_mem : u ∈ elements :=
      (h.sublist q (List.mem_append_right _ (List.mem_cons_of_mem _ hq))).subset
        (by rw [hu]; exact List.mem_cons_self)
    have hne : u ≠ t := fun heq => ht (heq ▸ hu_mem)
    have htail : t ∈ (group ++ [t]).tail := by
      rw [List.tail_append_of_ne_nil hgroup.ne_nil]
      exact List.mem_append_right _ List.mem_cons_self
    have hsublist := @sublist_of_sublist_concat elements [t] t u hne (hbefore t htail)
    exact absurd (hsublist.subset List.mem_cons_self) ht
  · intro p hp q hq
    rcases List.mem_cons.mp hq with rfl | hq
    · intro u hu
      have hlength := congrArg List.length hu
      rw [List.length_append, List.length_singleton, List.length_singleton] at hlength
      exact absurd (List.length_eq_zero_iff.mp (by omega)) hgroup.ne_nil
    · exact hacross p hp q (List.mem_cons_of_mem _ hq)

/-- An element is kept behind the others, which have all refused it. -/
theorem IsHistory.concat (h : IsHistory similarity elements parts) (ht : t ∉ elements)
    (hnone : ∀ p ∈ parts, p.2.merge? similarity t = none) :
    IsHistory similarity (elements ++ [t]) (parts ++ [([t], t)]) := by
  refine ⟨fun p hp => ?_, fun p hp => ?_, List.pairwise_append.mpr
    ⟨h.refused_concat ht, List.pairwise_singleton _ _, ?_⟩⟩
  · rcases List.mem_append.mp hp with hp | hp
    · exact h.mergesTo p hp
    · rw [List.mem_singleton.mp hp]
      exact .single t
  · rcases List.mem_append.mp hp with hp | hp
    · exact (h.sublist p hp).trans (List.sublist_append_left elements [t])
    · rw [List.mem_singleton.mp hp]
      exact List.sublist_append_right elements [t]
  · intro p hp q hq u _ _
    rw [List.mem_singleton.mp hq]
    exact hnone p hp

/-- All elements, one after another. -/
theorem exists_isHistory (similarity : Nat) (hnodup : elements.Nodup) :
    ∃ parts, IsHistory similarity elements parts ∧
      parts.map (·.2) = elements.foldl (fun kept t => place similarity t kept) [] := by
  induction elements using List.reverseRecOn with
  | nil => exact ⟨[], ⟨by simp, by simp, List.Pairwise.nil⟩, rfl⟩
  | append_singleton elements t ih =>
    rw [← List.concat_eq_append, List.nodup_concat] at hnodup
    rcases ih hnodup.2 with ⟨parts, h, hkept⟩
    rw [List.foldl_append, List.foldl_cons, List.foldl_nil, ← hkept]
    -- The last element is merged into the first kept one that takes it, or it is kept itself.
    rcases place_cases similarity t (parts.map (·.2)) with
      ⟨before, target, after, merged, hsplit, _, hm, hresult⟩ | ⟨hnone, hresult⟩
    · rw [hresult]
      rcases List.map_eq_append_iff.mp hsplit with ⟨front, rest, rfl, rfl, hrest⟩
      rcases List.map_eq_cons_iff.mp hrest with ⟨⟨group, a⟩, back, rfl, rfl, rfl⟩
      refine ⟨_, h.merge hnodup.1 hm, ?_⟩
      rw [List.map_append, List.map_cons]
    · rw [hresult]
      refine ⟨_, h.concat hnodup.1 fun p hp => hnone p.2 (List.mem_map_of_mem hp), ?_⟩
      rw [List.map_append, List.map_singleton]

/-- What has become of some of the kept elements. -/
theorem IsHistory.of_sublist {fewer : List (List TypeTree × TypeTree)}
    (h : IsHistory similarity elements parts) (hsub : fewer.Sublist parts) :
    IsHistory similarity elements fewer :=
  ⟨fun p hp => h.mergesTo p (hsub.subset hp), fun p hp => h.sublist p (hsub.subset hp),
    h.refused.sublist hsub⟩

/-- What is left when similar records with different digests have been merged. -/
theorem exists_isHistory_mergeSimilar (similarity : Nat) (trees : List TypeTree) :
    ∃ parts, IsHistory similarity (firstsBy digest trees) parts ∧
      parts.map (·.2) = mergeSimilar similarity (dropRepeated trees) := by
  rcases exists_isHistory similarity (nodup_map_firstsBy digest trees).of_map with ⟨parts, h, hkept⟩
  refine ⟨firstsBy (digest ∘ (·.2)) parts, h.of_sublist (firstsBy_sublist _ parts), ?_⟩
  rw [mergeSimilar, dropRepeated_eq_firstsBy trees, ← hkept, dropRepeated_eq_firstsBy, firstsBy_map]

/-- Of two arranged elements the later one has been refused if nothing has been merged into it, and
    into the earlier one nothing that comes behind it. -/
theorem exists_parts_arrange {kind : ElementKind} (hkind : kind ≠ .tuple .fixed) {trees : List TypeTree}
    (htrees : ∀ t ∈ trees, Coherent s t) : ∃ parts : List (List TypeTree × TypeTree),
      parts.map Prod.snd = arrange s kind trees ∧
      (∀ p ∈ parts, p.1.Sublist (firstsBy digest trees) ∧
        ∃ m, MergesTo s.similarity p.1 m ∧ IsNumbered s m p.2) ∧
      parts.Pairwise fun p q => ∀ t, q.1 = [t] →
        (∀ u ∈ p.1.tail, [u, t].Sublist (firstsBy digest trees)) →
        ¬MeetsRule s.similarity p.2 q.2 := by
  rcases exists_isHistory_mergeSimilar s.similarity trees with ⟨parts, h, hkept⟩
  have hcoherent : ∀ p ∈ parts, Coherent s p.2 := by
    have hmerged : ∀ u ∈ mergeSimilar s.similarity (dropRepeated trees), Coherent s u :=
      forall_mem_mergeSimilar (fun _ _ _ ha hb hm => hm.coherent ha hb)
        fun t ht => htrees t (mem_of_mem_dropSeen ht)
    rw [← hkept] at hmerged
    exact List.forall_mem_map.mp hmerged
  -- What has been refused does not meet the rule, as no digest is left twice.
  have hnodup : parts.Pairwise fun p q => p.2.digest ≠ q.2.digest := by
    have hdigests := nodup_dropRepeated
      ((dropRepeated trees).foldl (fun kept t => place s.similarity t kept) [])
    rw [← mergeSimilar, ← hkept, List.map_map, List.Nodup, List.pairwise_map] at hdigests
    exact hdigests
  have hpairwise := List.Pairwise.imp_of_mem (fun {p q} hp hq hboth t ht hbefore =>
    (merge?_eq_none_iff (hcoherent p hp) (hcoherent q hq) hboth.2).mp (hboth.1 t ht hbefore))
    (h.refused.and hnodup)
  have hnumbered := forall₂_disambiguate s (mergeSimilar s.similarity (dropRepeated trees))
  rw [← arrange_of_ne_fixed hkind, ← hkept] at hnumbered
  -- Numbering goes over the parts one by one, and the rule does not look at names.
  rcases exists_pairs_of_forall₂ hnumbered with ⟨others, hothers, hrelated⟩
  refine ⟨others, hothers, fun q hq => ?_, ?_⟩
  · rcases exists_mem_left_of_forall₂ hrelated hq with ⟨p, hp, hgroup, hnumber⟩
    rw [hgroup]
    exact ⟨h.sublist p hp, p.2, h.mergesTo p hp, hnumber⟩
  · refine pairwise_of_forall₂ hrelated hpairwise ?_
    rintro p p' q q' ⟨hp, hpn⟩ ⟨hq, hqn⟩ hpq
    rw [hp, hq, hpn.meetsRule_iff hqn]
    exact hpq

end Histories

end TypeTree

namespace Inference

open TypeTree

variable {run : Inference} {name : String}

/-- Which records are left among the elements of a sequence, except in a tuple of fixed size.
    Another pass changes nothing exactly if no two of them meet the rule. Two of them do not if
    the later one is an item as it was inferred, and what has been merged into the earlier one
    after its first record comes before that item. So no two meet it if nothing has been
    merged. -/
theorem not_meetsRule_of_elements {kind : SequenceKind} {items : List Value} {v : Value}
    {elementKind : ElementKind} {height : Nat} {shape : Shape} {elements : List TypeTree}
    (h : run.node name (.sequence kind items) = .ok (.sequence name v elementKind height shape elements))
    (hkind : elementKind ≠ .tuple .fixed) :
    (mergeSimilar run.strategies.similarity elements = elements ↔
      elements.Pairwise fun a b => ¬MeetsRule run.strategies.similarity a b) ∧
    ∃ (trees : List TypeTree) (parts : List (List TypeTree × TypeTree)),
      List.Forall₂ (fun item t => run.child name (.element item) item = .ok t) items trees ∧
      parts.map Prod.snd = elements ∧
      (∀ p ∈ parts, p.1.Sublist (firstsBy TypeTree.digest trees) ∧
        ∃ m, MergesTo run.strategies.similarity p.1 m ∧ IsNumbered run.strategies m p.2) ∧
      parts.Pairwise fun p q => ∀ t, q.1 = [t] →
        (∀ u ∈ p.1.tail, [u, t].Sublist (firstsBy TypeTree.digest trees)) →
        ¬MeetsRule run.strategies.similarity p.2 q.2 := by
  cases isNode_of_node h with
  | @sequence _ _ rule _ trees hget hrule hchildren =>
    have htrees := coherent_of_children hchildren
    have hnodup : ((arrange run.strategies elementKind trees).map TypeTree.digest).Nodup := by
      rw [arrange_of_ne_fixed hkind, map_digest_disambiguate, mergeSimilar]
      exact nodup_dropRepeated _
    rcases exists_parts_arrange hkind htrees with ⟨parts, helements, hgrown, hpairwise⟩
    exact ⟨mergeSimilar_eq_self_iff (coherent_arrange htrees) hnodup, trees, parts, hchildren,
      helements, hgrown, hpairwise⟩

instance (similarity : Nat) (a b : TypeTree) : Decidable (MeetsRule similarity a b) :=
  inferInstanceAs (Decidable (_ ∧ _ ∧ _))

/-- Two records without a common field stay as they are. -/
theorem not_meetsRule_of_elements_ones :
    ∃ v height shape x y,
      Inference.node { registry := Registry.extended [] } "E" (.sequence .list [ones ["a"], ones ["b"]]) =
        .ok (.sequence "E" v .list height shape [x, y]) ∧
      mergeSimilar 50 [x, y] = [x, y] := by
  obtain ⟨v, height, shape, elements, hnode, hlength, hrule⟩ : ∃ v height shape elements,
      Inference.node { registry := Registry.extended [] } "E" (.sequence .list [ones ["a"], ones ["b"]]) =
        .ok (.sequence "E" v .list height shape elements) ∧
      elements.length = 2 ∧ elements.Pairwise fun a b => ¬MeetsRule 50 a b :=
    ⟨_, _, _, _, rfl, by decide +kernel, by decide +kernel⟩
  rcases List.length_eq_two.mp hlength with ⟨x, y, rfl⟩
  exact ⟨v, height, shape, x, y, hnode,
    (not_meetsRule_of_elements hnode ElementKind.noConfusion).1.mpr hrule⟩

/-- Two records that have come to share a field by way of a third one. -/
theorem meetsRule_ones :
    ∃ v height shape x y,
      Inference.node { registry := Registry.extended [] } "E"
          (.sequence .list [ones ["a"], ones ["b"], ones ["a", "b"]]) =
        .ok (.sequence "E" v .list height shape [x, y]) ∧
      MeetsRule 50 x y := by
  obtain ⟨v, height, shape, elements, hnode, hlength, hrule⟩ : ∃ v height shape elements,
      Inference.node { registry := Registry.extended [] } "E"
          (.sequence .list [ones ["a"], ones ["b"], ones ["a", "b"]]) =
        .ok (.sequence "E" v .list height shape elements) ∧
      elements.length = 2 ∧ elements.Pairwise (MeetsRule 50) :=
    ⟨_, _, _, _, rfl, by decide +kernel, by decide +kernel⟩
  rcases List.length_eq_two.mp hlength with ⟨x, y, rfl⟩
  exact ⟨v, height, shape, x, y, hnode, List.pairwise_pair.mp hrule⟩

end Inference

end TypeSketch
