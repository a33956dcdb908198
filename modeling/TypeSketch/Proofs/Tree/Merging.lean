import TypeSketch.Proofs.Tree.Nodes
import TypeSketch.Proofs.Value.Keys

/-!
# What a Merge Does

Two records that are merged, and what comes out. `IsMerge` holds of two records and
their merge, and names everything about the three, so a proof about merging takes the
two records apart once and never unfolds `TypeTree.merge?`.

The fields of a merge are a fold that asks, for each new field, whether the fields so
far have its key. If no key repeats in the second record, the answer depends on the
first record alone, and the fields are those of the first record with the new ones
behind them.

## Main definitions

* `TypeTree.IsMerge`: A record is the merge of two.
* `TypeTree.newFields`: The fields that a merge adds.

## Theorems

* `TypeTree.merge?_eq_some_iff`: When there is a merge, and which.
* `TypeTree.mergeFields_eq_append`: The fields of a merge.
* `TypeTree.digest_eq_of_shared`: A shared field has one digest in both records.
* `TypeTree.exists_mem_mergeFields`, `TypeTree.exists_shape_mem_mergeFields`: Every field of the
  second record is in the merge.
* `TypeTree.mem_mergeProfiles`: The optional fields of a merge.
-/

namespace TypeSketch

namespace TypeTree

/-- The third tree is the merge of the first two. -/
inductive IsMerge (similarity : Nat) : TypeTree → TypeTree → TypeTree → Prop
  | intro {name theirName : String} {v w : Value} {ours theirs : RecordProfile}
    {height theirHeight : Nat} {shape theirShape : Shape} {left right : List (Value × TypeTree)}
    (similar : areSimilar similarity left right = true) :
    IsMerge similarity (.mapping name v (.record ours) height shape left)
      (.mapping theirName w (.record theirs) theirHeight theirShape right)
      (.mapping name v
        (.record (mergeProfiles ours theirs (fieldNames left) (fieldNames right)))
        (max height theirHeight)
        (shapeOfFields (.record (mergeProfiles ours theirs (fieldNames left) (fieldNames right)))
          (mergeFields name theirName left right))
        (mergeFields name theirName left right))

theorem merge?_eq_some_iff {similarity : Nat} {a b m : TypeTree} :
    a.merge? similarity b = some m ↔ IsMerge similarity a b m := by
  constructor
  · intro h
    unfold merge? at h
    split at h
    · split at h
      · next hsim =>
        rw [Option.some.injEq] at h
        rw [← h]
        exact IsMerge.intro hsim
      · contradiction
    · contradiction
  · rintro ⟨hsim⟩
    rw [merge?, if_pos hsim]

/-- The fields of a record whose keys another record does not have, as its own. -/
def newFields (ourName theirName : String) (ours theirs : List (Value × TypeTree)) :
    List (Value × TypeTree) :=
  (theirs.filter fun f => (Value.entry? ours f.1).isNone).map fun f =>
    (f.1, adopt theirName ourName f.2)

theorem entry?_append_of_fresh {α : Type} {entries added : List (Value × α)} {key : Value}
    (h : ∀ e ∈ added, e.1.same key = false) :
    Value.entry? (entries ++ added) key = Value.entry? entries key := by
  -- The lookup goes past what has been added.
  have hnone : added.find? (fun e => e.1.same key) = none := by
    rw [List.find?_eq_none]
    intro e he
    rw [h e he]
    exact Bool.false_ne_true
  rw [Value.entry?, Value.entry?, List.find?_append, hnone, Option.or_none]

/-- The fields of a merge are those of the first record and the new ones of the second. -/
theorem mergeFields_eq_append {ourName theirName : String} {ours theirs : List (Value × TypeTree)}
    (hd : Value.DistinctKeys theirs) :
    mergeFields ourName theirName ours theirs = ours ++ newFields ourName theirName ours theirs := by
  -- What has been added so far has keys that do not occur in the rest.
  have hfold : ∀ (added rest : List (Value × TypeTree)), Value.DistinctKeys rest →
      (∀ e ∈ added, ∀ f ∈ rest, e.1.same f.1 = false) →
      mergeFields ourName theirName (ours ++ added) rest =
        ours ++ added ++ newFields ourName theirName ours rest := by
    intro added rest
    induction rest generalizing added with
    | nil => intro _ _; rw [newFields, List.filter_nil, List.map_nil, List.append_nil]; rfl
    | cons f rest ih =>
      intro hrest hfresh
      rw [Value.DistinctKeys, List.pairwise_cons] at hrest
      have hentry : Value.entry? (ours ++ added) f.1 = Value.entry? ours f.1 :=
        entry?_append_of_fresh fun e he => hfresh e he f List.mem_cons_self
      -- One step of the fold adds the field, unless its key is there.
      have hstep : mergeFields ourName theirName (ours ++ added) (f :: rest) =
          mergeFields ourName theirName
            (if (Value.entry? (ours ++ added) f.1).isSome then ours ++ added
              else ours ++ added ++ [(f.1, adopt theirName ourName f.2)]) rest := rfl
      rw [hstep, hentry]
      cases hours : Value.entry? ours f.1 with
      | some child =>
        rw [Option.isSome_some, if_pos rfl,
          ih added hrest.2 fun e he g hg => hfresh e he g (List.mem_cons_of_mem f hg)]
        simp only [newFields, List.filter_cons, hours, Option.isNone_some, Bool.false_eq_true,
          if_false]
      | none =>
        rw [Option.isSome_none, if_neg Bool.false_ne_true, List.append_assoc ours,
          ih (added ++ [(f.1, adopt theirName ourName f.2)]) hrest.2 ?_]
        · simp only [newFields, List.filter_cons, hours, Option.isNone_none, if_true, List.map_cons,
            List.append_assoc, List.singleton_append]
        · intro e he g hg
          rcases List.mem_append.mp he with he | he
          · exact hfresh e he g (List.mem_cons_of_mem f hg)
          · rw [List.mem_singleton] at he
            rw [he]
            exact hrest.1 g hg
  have := hfold [] theirs hd (fun e he => absurd he List.not_mem_nil)
  rwa [List.append_nil] at this

theorem mem_newFields {ourName theirName : String} {ours theirs : List (Value × TypeTree)}
    {f : Value × TypeTree} :
    f ∈ newFields ourName theirName ours theirs ↔
      ∃ g ∈ theirs, Value.entry? ours g.1 = none ∧ f = (g.1, adopt theirName ourName g.2) := by
  simp only [newFields, List.mem_map, List.mem_filter, Option.isNone_iff_eq_none]
  constructor
  · rintro ⟨g, ⟨hg, hnone⟩, rfl⟩
    exact ⟨g, hg, hnone, rfl⟩
  · rintro ⟨g, hg, hnone, rfl⟩
    exact ⟨g, ⟨hg, hnone⟩, rfl⟩

/-- What holds of the fields of the first record, and of those of the second one once they are
    its own, holds of the fields of the merge. -/
theorem forall_field_mergeFields {P : Value × TypeTree → Prop} {ourName theirName : String}
    {ours theirs : List (Value × TypeTree)} (hours : ∀ f ∈ ours, P f)
    (htheirs : ∀ g ∈ theirs, P (g.1, adopt theirName ourName g.2)) :
    ∀ f ∈ mergeFields ourName theirName ours theirs, P f := by
  -- A field that is added is one of ours from then on.
  induction theirs generalizing ours with
  | nil => exact hours
  | cons g rest ih =>
    have hstep : mergeFields ourName theirName ours (g :: rest) =
        mergeFields ourName theirName
          (if (Value.entry? ours g.1).isSome then ours
            else ours ++ [(g.1, adopt theirName ourName g.2)]) rest := rfl
    rw [hstep]
    refine ih ?_ fun g' hg' => htheirs g' (List.mem_cons_of_mem g hg')
    split
    · exact hours
    · intro f hf
      rcases List.mem_append.mp hf with hf | hf
      · exact hours f hf
      · rw [List.mem_singleton.mp hf]
        exact htheirs g List.mem_cons_self

/-- What holds of the children of both records, once they are those of the first one. -/
theorem forall_mem_mergeFields {P : TypeTree → Prop} {ourName theirName : String}
    {ours theirs : List (Value × TypeTree)} (hours : ∀ f ∈ ours, P f.2)
    (htheirs : ∀ g ∈ theirs, P (adopt theirName ourName g.2)) :
    ∀ f ∈ mergeFields ourName theirName ours theirs, P f.2 :=
  forall_field_mergeFields (P := fun f => P f.2) hours htheirs

/-- If two lists of fields are similar, a field that is in both has one digest in both. -/
theorem digest_eq_of_shared {similarity : Nat} {left right : List (Value × TypeTree)}
    (h : areSimilar similarity left right = true) {f : Value × TypeTree} (hf : f ∈ left)
    {theirs : TypeTree} (ht : Value.entry? right f.1 = some theirs) : f.2.digest = theirs.digest := by
  simp only [areSimilar, Bool.and_eq_true, List.all_eq_true, decide_eq_true_eq] at h
  refine h.1.1 (f.2, theirs) (List.mem_filterMap.mpr ⟨f, hf, ?_⟩)
  rcases f with ⟨key, child⟩
  simp only [ht, Option.map_some]

/-- A field of the second record is in the merge, under its key: with its own type, or with that of
    a field of the first record, which has one digest with it. -/
theorem exists_mem_mergeFields {similarity : Nat} {ourName theirName : String}
    {left right : List (Value × TypeTree)} (hd : Value.DistinctKeys right)
    (htexts : Value.TextKeys right) (h : areSimilar similarity left right = true)
    {g : Value × TypeTree} (hg : g ∈ right) :
    ∃ f ∈ mergeFields ourName theirName left right, f.1 = g.1 ∧
      (f.2 = adopt theirName ourName g.2 ∨ f ∈ left ∧ f.2.digest = g.2.digest) := by
  rw [mergeFields_eq_append hd]
  rcases htexts g hg with ⟨text, htext⟩
  cases hentry : Value.entry? left g.1 with
  | none =>
    -- The first record has no such key, and takes the field over.
    refine ⟨(g.1, adopt theirName ourName g.2), List.mem_append_right _ ?_, rfl, Or.inl rfl⟩
    exact mem_newFields.mpr ⟨g, hg, hentry, rfl⟩
  | some child =>
    rw [htext] at hentry
    -- The first record has the key, with the same digest, because the two are similar.
    have hmem := Value.mem_of_entry?_str hentry
    have hright : Value.entry? right (.str text) = some g.2 := by
      rw [Value.entry?_str_eq_some_iff hd, ← htext]
      exact hg
    exact ⟨(.str text, child), List.mem_append_left _ hmem, htext.symm,
      Or.inr ⟨hmem, digest_eq_of_shared h hmem hright⟩⟩

/-- Where fields of one digest have one shape, a field of the second record keeps its shape. -/
theorem exists_shape_mem_mergeFields {similarity : Nat} {ourName theirName : String}
    {left right : List (Value × TypeTree)} (hd : Value.DistinctKeys right)
    (htexts : Value.TextKeys right) (h : areSimilar similarity left right = true)
    {g : Value × TypeTree} (hg : g ∈ right)
    (hshared : ∀ f ∈ left, f.2.digest = g.2.digest → f.2.shape = g.2.shape) :
    ∃ f ∈ mergeFields ourName theirName left right, f.1 = g.1 ∧ f.2.shape = g.2.shape := by
  have hkept : ∃ f ∈ mergeFields ourName theirName left right, f.1 = g.1 ∧
      (f.2 = adopt theirName ourName g.2 ∨ f ∈ left ∧ f.2.digest = g.2.digest) :=
    exists_mem_mergeFields hd htexts h hg
  rcases hkept with ⟨f, hf, hkey, heq | ⟨hmem, hdigest⟩⟩
  · exact ⟨f, hf, hkey, by rw [heq, shape_adopt]⟩
  · exact ⟨f, hf, hkey, hshared f hmem hdigest⟩

theorem mem_fieldNames {fields : List (Value × TypeTree)} {name : String} :
    name ∈ fieldNames fields ↔ ∃ f ∈ fields, f.1.keyText = name := by
  rw [fieldNames, NameSet.mem_ofList, List.mem_map]

/-- A field of a merge is optional if it is in one of the two records, or if one of the
    two lacks it. -/
theorem mem_mergeProfiles {ours theirs : RecordProfile} {ourNames theirNames : NameSet}
    {name : String} :
    name ∈ (mergeProfiles ours theirs ourNames theirNames).optionalFields ↔
      name ∈ ours.optionalFields ∨ name ∈ theirs.optionalFields ∨
        (name ∈ ourNames ∧ name ∉ theirNames) ∨ (name ∈ theirNames ∧ name ∉ ourNames) := by
  rw [mergeProfiles, NameSet.mem_insertAll, NameSet.mem_symmetricDifference, NameSet.mem_union]
  rw [or_comm, or_comm (a := name ∈ theirs.optionalFields), or_assoc]

end TypeTree

end TypeSketch
