import TypeSketch.Proofs.Tree.Current
import TypeSketch.Proofs.Tree.MergedShapes
import TypeSketch.Proofs.Tree.NormalForm
import TypeSketch.Proofs.Tree.Parts

/-!
# Trees Without Merges

Records are merged if so many percent of their fields are fields of both. If all of them have to
be, then two records that meet the rule have the same fields with the same digests. In neither
of them a field may be missing yet, so they have one digest themselves, and of one digest only the
first record is left before records are merged. So none are merged, and since nothing but a
merge makes a field optional, this goes on one level up.

## Main definitions

* `TypeTree.RequiresAll`: Records without optional fields.
* `Inference.KeepsElements`: Sequences with the trees of their items, of each digest the first one.

## Theorems

* `TypeTree.digest_eq_of_meetsRule`: Records that meet the rule have one digest.
* `TypeTree.mergeSimilar_dropRepeated`: Elements stay as they are.
* `Inference.requiresAll_of_node`, `Inference.keepsElements_of_node`: All nodes of a tree.
-/

namespace TypeSketch

namespace TypeTree

/-- If it is a record, then no field of it may be missing. -/
def RequiresAll (t : TypeTree) : Prop :=
  ∀ profile, t.profile? = some profile → profile.optionalFields = ∅

variable {s : Strategies} {t : TypeTree} {trees : List TypeTree}

theorem profile?_rename (t : TypeTree) (newName : String) :
    (t.rename newName).profile? = t.profile? := by
  cases t with
  | scalar name v type => rfl
  | mapping name v form height shape fields => cases form <;> rfl
  | sequence name v kind height shape elements => rfl

theorem requiresAll_of_profile? (h : t.profile? = none) : t.RequiresAll := by
  intro profile hprofile
  rw [h] at hprofile
  contradiction

/-- The nodes of a renamed tree have the profiles that they have had. -/
theorem requiresAll_of_mem_nodes_rename {newName : String} (h : ∀ u ∈ t.nodes, u.RequiresAll) :
    ∀ u ∈ (t.rename newName).nodes, u.RequiresAll := by
  intro u hu
  rcases mem_nodes_rename_cases hu with ⟨w, hw, rfl | ⟨name, rfl⟩⟩
  · exact h u hw
  · rw [RequiresAll, profile?_rename]
    exact h w hw

theorem mem_sortedDigests {profile : RecordProfile} {fields : List (Value × TypeTree)} {name : String}
    {required : Bool} {word : UInt64} : ((name, required), word) ∈ sortedDigests profile fields ↔
      (∃ f ∈ fields, f.1.keyText = name ∧ f.2.digest = word) ∧
        required = !profile.optionalFields.contains name := by
  rw [sortedDigests_eq, List.mem_map]
  constructor
  · rintro ⟨row, hrow, heq⟩
    rcases mem_sortedFields.mp hrow with ⟨f, hf, rfl⟩
    cases heq
    exact ⟨⟨f, hf, rfl, rfl⟩, rfl⟩
  · rintro ⟨⟨f, hf, rfl, rfl⟩, rfl⟩
    exact ⟨_, mem_sortedFields.mpr ⟨f, hf, rfl⟩, rfl⟩

/-- The rows determine the digest of a record. -/
theorem digest_shapeOfFields_congr {profile other : RecordProfile}
    {fields others : List (Value × TypeTree)}
    (h : sortedDigests profile fields = sortedDigests other others) :
    (shapeOfFields (.record profile) fields).digest =
      (shapeOfFields (.record other) others).digest := by
  have hfed : ∀ (profile : RecordProfile) (fields : List (Value × TypeTree)),
      (shapeOfFields (.record profile) fields).fed =
        Shape.stream (.record ((sortedDigests profile fields).map (·.1)))
          ((sortedDigests profile fields).map (·.2)) := by
    intro profile fields
    simp only [shapeOfFields, Shape.fed, Shape.digests_eq_map, sortedDigests_eq, List.map_map,
      Function.comp_def]
  rw [Shape.digest_eq, Shape.digest_eq, hfed, hfed, h]

theorem nodup_names_sortedDigests {profile : RecordProfile} {fields : List (Value × TypeTree)}
    (hdistinct : Value.DistinctKeys fields) (htexts : Value.TextKeys fields) :
    ((sortedDigests profile fields).map (·.1.1)).Nodup := by
  rw [sortedDigests_eq, List.map_map]
  exact nodup_names_sortedFields hdistinct htexts

theorem ascending_sortedDigests (profile : RecordProfile) (fields : List (Value × TypeTree)) :
    (sortedDigests profile fields).Pairwise fun a b => a.1.1 ≤ b.1.1 := by
  rw [sortedDigests_eq]
  exact List.pairwise_map.mpr (ascending_sortedFields profile fields)

/-- Records whose fields are all shared, and in which no field may be missing, have one digest. -/
theorem digest_eq_of_meetsRule {a b : TypeTree} (ha : Coherent s a) (hb : Coherent s b)
    (hours : a.RequiresAll) (htheirs : b.RequiresAll) (h : MeetsRule 100 a b) :
    a.digest = b.digest := by
  rcases h with ⟨⟨hrecord, hrecord'⟩, hdigests, hcount⟩
  -- The union has no more names than the intersection, so both records have the same names.
  have hcard : (a.nameSet ∪ b.nameSet).card ≤ (a.nameSet ∩ b.nameSet).card := by omega
  have hsub : a.nameSet ∩ b.nameSet ⊆ a.nameSet ∪ b.nameSet :=
    Finset.inter_subset_left.trans Finset.subset_union_left
  have hnames : a.nameSet = b.nameSet :=
    inf_eq_sup.mp (Finset.eq_of_subset_of_card_le hsub hcard)
  rcases exists_eq_of_isRecord hrecord with ⟨name, v, ours, height, shape, left, rfl⟩
  rcases exists_eq_of_isRecord hrecord' with ⟨theirName, w, theirs, height', shape', right, rfl⟩
  rcases ha with _ | ⟨_, hdistinct, hfits, _, hshape⟩
  rcases hb with _ | ⟨_, hdistinct', hfits', _, hshape'⟩
  have hname : ∀ text, (∃ f ∈ left, f.1.keyText = text) ↔ ∃ g ∈ right, g.1.keyText = text := by
    intro text
    have hmem := Finset.ext_iff.mp hnames text
    rwa [nameSet, nameSet, List.mem_toFinset, List.mem_toFinset, List.mem_map, List.mem_map] at hmem
  -- A row is in either list if the other record has a field of that name, for no field is optional
  -- and fields of one name have one digest.
  have hrows : sortedDigests ours left = sortedDigests theirs right := by
    refine rows_eq_of_mem_iff (ascending_sortedDigests ours left) (ascending_sortedDigests theirs right)
      (nodup_names_sortedDigests hdistinct hfits.textKeys)
      (nodup_names_sortedDigests hdistinct' hfits'.textKeys) ?_
    rintro ⟨⟨text, required⟩, word⟩
    rw [mem_sortedDigests, mem_sortedDigests, hours ours rfl, htheirs theirs rfl]
    refine and_congr_left fun _ => ⟨?_, ?_⟩
    · rintro ⟨f, hf, hf_name, hf_word⟩
      rcases (hname text).mp ⟨f, hf, hf_name⟩ with ⟨g, hg, hg_name⟩
      exact ⟨g, hg, hg_name, (hdigests f hf g hg (hf_name.trans hg_name.symm)).symm.trans hf_word⟩
    · rintro ⟨g, hg, hg_name, hg_word⟩
      rcases (hname text).mpr ⟨g, hg, hg_name⟩ with ⟨f, hf, hf_name⟩
      exact ⟨f, hf, hf_name, (hdigests f hf g hg (hf_name.trans hg_name.symm)).trans hg_word⟩
  rw [digest, digest, TypeTree.shape, TypeTree.shape, hshape, hshape',
    digest_shapeOfFields_congr hrows]

/-- Elements without repetitions stay as they are if all fields have to be shared. -/
theorem mergeSimilar_dropRepeated (hcoherent : ∀ t ∈ trees, Coherent s t)
    (htrees : ∀ t ∈ trees, t.RequiresAll) :
    mergeSimilar 100 (dropRepeated trees) = dropRepeated trees := by
  refine mergeSimilar_eq_self (nodup_dropRepeated trees) fun t ht u hu hne => ?_
  have ht' : t ∈ trees := mem_of_mem_dropSeen ht
  have hu' : u ∈ trees := mem_of_mem_dropSeen hu
  refine (merge?_eq_none_iff (hcoherent t ht') (hcoherent u hu') hne).mpr fun hrule => hne ?_
  exact digest_eq_of_meetsRule (hcoherent t ht') (hcoherent u hu') (htrees t ht') (htrees u hu')
    hrule

/-- If no elements are merged, then all that is done to them is to number them. -/
theorem exists_isNumbered_of_mem_arrange {kind : ElementKind} {u : TypeTree}
    (h : mergeSimilar s.similarity (dropRepeated trees) = dropRepeated trees)
    (hu : u ∈ arrange s kind trees) : ∃ t ∈ trees, IsNumbered s t u := by
  have hnumbered : ∀ ts : List TypeTree, u ∈ disambiguate s ts → ∃ t ∈ ts, IsNumbered s t u :=
    fun ts hu => exists_mem_left_of_forall₂ (forall₂_disambiguate s ts) hu
  unfold arrange at hu
  split at hu
  · exact hnumbered trees hu
  · rw [h] at hu
    rcases hnumbered _ hu with ⟨t, ht, hnumber⟩
    exact ⟨t, mem_of_mem_dropSeen ht, hnumber⟩

end TypeTree

namespace Inference

open TypeTree

variable {run : Inference}

/-- The elements of a sequence have the shapes of the trees of its items, of each digest that of
    the first tree that has it. A tuple of fixed size has an element for each item. -/
def KeepsElements (run : Inference) (t : TypeTree) : Prop :=
  ∀ name v kind height shape elements, t = .sequence name v kind height shape elements →
    kind ≠ .tuple .fixed → ∃ parent sequenceKind items trees, v = .sequence sequenceKind items ∧
      List.Forall₂ (fun item t => run.child parent (.element item) item = .ok t) items trees ∧
      elements.map TypeTree.shape = (firstsBy TypeTree.digest trees).map TypeTree.shape

/-- Elements keep their shapes when a sequence is renamed, and a merge is no sequence. -/
theorem isNodewise_keepsElements (run : Inference) : IsNodewise run.KeepsElements where
  rename t newName h name v kind height shape elements heq := by
    cases t with
    | scalar _ _ _ => contradiction
    | mapping _ _ _ _ _ _ => contradiction
    | sequence oldName v' kind' height' shape' elements' =>
      rw [TypeTree.rename, renameElements_eq_map, TypeTree.sequence.injEq] at heq
      rcases heq with ⟨_, rfl, rfl, rfl, rfl, rfl⟩
      intro hkind
      -- The elements have new names and the shapes they had.
      rcases h _ _ _ _ _ _ rfl hkind with
        ⟨parent, sequenceKind, items, trees, hv, htrees, helements⟩
      refine ⟨parent, sequenceKind, items, trees, hv, htrees, ?_⟩
      rw [← helements, List.map_map]
      exact List.map_congr_left fun c _ => shape_followRename oldName newName c
  merge _ _ _ m hm _ _ name v kind height shape elements heq := by
    rw [heq] at hm
    cases hm

section FullSimilarity

variable (hfull : run.strategies.similarity = 100)

include hfull

/-- No record in a tree has a field that may be missing. -/
theorem requiresAll_of_node {name : String} {v : Value} {t : TypeTree}
    (h : run.node name v = .ok t) : ∀ u ∈ t.nodes, u.RequiresAll := by
  refine node_induct (P := fun _ _ t => ∀ u ∈ t.nodes, u.RequiresAll) ?_ ?_ ?_ v name t h
  · intro name v type _
    exact forall_nodes_of_children (requiresAll_of_profile? rfl)
      fun c hc => absurd hc List.not_mem_nil
  · intro name kind items rule elementKind trees _ _ hchildren htrees
    refine forall_nodes_of_children (requiresAll_of_profile? rfl) fun c hc => ?_
    -- Induction gives this for the trees of the items, and an element is one of them.
    have hbelow : ∀ t ∈ trees, ∀ u ∈ t.nodes, u.RequiresAll := by
      intro t ht
      rcases exists_mem_left_of_forall₂ htrees ht with ⟨_, _, hnodes⟩
      exact hnodes
    have hself := mergeSimilar_dropRepeated (coherent_of_children hchildren)
      fun t ht => hbelow t ht t (mem_nodes_self t)
    rw [← hfull] at hself
    -- An element is one of the trees as it was, or renamed with a number.
    rcases exists_isNumbered_of_mem_arrange hself hc with ⟨t, ht, rfl | ⟨_, _, rfl⟩⟩
    · exact hbelow c ht
    · exact requiresAll_of_mem_nodes_rename (hbelow t ht)
  · intro name entries children _ _ hchildren
    refine forall_nodes_of_children (fun profile hprofile => ?_)
      (List.forall_mem_map.mpr fun f hf => ?_)
    · -- The profile is the one that a record begins with.
      rw [ofFields, mappingForm] at hprofile
      split at hprofile
      · rw [← Option.some.inj hprofile]
      · contradiction
    · rcases (mem_distinctFields hf).2 with ⟨c, hc, heq⟩
      rcases exists_mem_left_of_forall₂ hchildren hc with ⟨_, _, hnodes⟩
      rw [← heq]
      exact hnodes

/-- The trees of the items of a sequence are not merged. -/
theorem mergeSimilar_of_children {parent : String} {items : List Value} {trees : List TypeTree}
    (h : List.Forall₂ (fun item t => run.child parent (.element item) item = .ok t) items trees) :
    mergeSimilar run.strategies.similarity (dropRepeated trees) = dropRepeated trees := by
  rw [hfull]
  refine mergeSimilar_dropRepeated (coherent_of_children h) fun t ht => ?_
  rcases exists_mem_left_of_forall₂ h ht with ⟨item, _, hchild⟩
  exact requiresAll_of_node hfull (child_eq_ok_iff.mp hchild).1 t (mem_nodes_self t)

/-- The elements of all sequences in a tree are the trees of their items, up to repetitions and
    numbers. -/
theorem keepsElements_of_node {name : String} {v : Value} {t : TypeTree}
    (h : run.node name v = .ok t) : ∀ u ∈ t.nodes, run.KeepsElements u := by
  refine forall_nodes_of_node (isNodewise_keepsElements run) ?_ h
  intro parent part u _ hnode name w kind height shape elements heq hkind
  cases hnode with
  | scalar _ => contradiction
  | mapping _ _ => contradiction
  | @sequence sequenceKind items rule elementKind trees _ _ hchildren =>
    rw [ofElements, TypeTree.sequence.injEq] at heq
    rcases heq with ⟨_, rfl, rfl, _, _, rfl⟩
    refine ⟨parent, sequenceKind, items, trees, rfl, hchildren, ?_⟩
    rw [arrange_of_ne_fixed hkind, map_shape_disambiguate, mergeSimilar_of_children hfull hchildren,
      dropRepeated_eq_firstsBy]

end FullSimilarity

end Inference

end TypeSketch
