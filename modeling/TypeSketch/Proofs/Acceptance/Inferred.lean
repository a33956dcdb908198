import TypeSketch.Proofs.Acceptance.Exchange

/-!
# Examples Are of Their Inferred Types

Inference is sound: the type that is inferred from a value accepts the value. The values
of a mapping have to have different keys, since a later entry takes the place of an
earlier one with its key.

The interesting step is a sequence. Its elements are dropped, merged and numbered, so an
item meets a type that was inferred from another item, at every depth. Covering is what
carries over: a tree covers another one if it accepts whatever the other one accepts,
which is so for trees of one shape and for a record and its merges.

Elements are dropped by their digests. Two records with different fields can have one digest,
and then only the first of them is in the type of a list of both. So the digests of what comes
up in inference must not collide.

## Theorems

* `TypeTree.exists_mem_arrange_accepts`: The arranged elements accept what the elements accept.
* `Inference.accepts_of_infer`: Inferred types accept their examples.
-/

namespace TypeSketch

namespace TypeTree

variable {s : Strategies} {r : Registry}

/-- What an element accepts one of the arranged elements accepts, if the digests of the elements
    do not collide, neither before nor after similar records have been merged. -/
theorem exists_mem_arrange_accepts {shapes : List Shape} (hfree : Shape.CollisionFree shapes)
    {kind : ElementKind} {trees : List TypeTree} (htrees : ∀ t ∈ trees, IsKnown s shapes t)
    (hgiven : ∀ t ∈ trees, t.shape ∈ shapes)
    (hgathered : ∀ t ∈ gathered s kind trees, t.shape ∈ shapes) {t : TypeTree} (ht : t ∈ trees) :
    ∃ u ∈ arrange s kind trees, ∀ v, accepts r t v = true → accepts r u v = true := by
  have hexchange : ∀ ts : List TypeTree, (∀ t ∈ ts, Coherent s t) → (∀ t ∈ ts, t.shape ∈ shapes) →
      ∀ t ∈ ts, ∀ u ∈ ts, t.digest = u.digest → ∀ v, accepts r t v = true → accepts r u v = true :=
    fun ts hts hmem t ht u hu heq v hv =>
      (hts t ht).accepts_of_shape_eq (hts u hu) (hfree _ (hmem t ht) _ (hmem u hu) heq) hv
  have hcoherent : ∀ t ∈ trees, Coherent s t := fun t ht => (htrees t ht).coherent
  -- Every pass leaves something that covers what it takes away: a merge accepts what its records
  -- do, a renamed tree what it did before, and a tree of one digest what the dropped one does.
  refine exists_covering_arrange (P := IsKnown s shapes)
    (R := fun t u => ∀ v, accepts r t v = true → accepts r u v = true)
    ?_ ?_ ?_ ?_ ?_ ?_ ?_ ?_ htrees ht
  · exact fun a b m ha hb hm => ha.merge hfree hb hm
  · exact fun a b m ha hb hm v hv => hm.accepts_left ha.coherent hb.coherent hv
  · exact fun a b m ha hb hm v hv => hm.accepts_right hfree ha hb hv
  · intro t u ht hn v hv
    exact ht.coherent.accepts_of_shape_eq (hn.coherent ht.coherent) hn.shape_eq.symm hv
  · exact hexchange trees hcoherent hgiven
  · exact hexchange _ (coherent_gathered hcoherent) hgathered
  · exact fun t v hv => hv
  · exact fun t u w htu huw v hv => huw v (htu v hv)

/-- In a tuple of fixed size each item keeps its type up to its name. -/
theorem forall₂_arrange_fixed {trees : List TypeTree} (htrees : ∀ t ∈ trees, Coherent s t)
    {items : List Value} (h : List.Forall₂ (fun t v => accepts r t v = true) trees items) :
    List.Forall₂ (fun u v => accepts r u v = true) (arrange s (.tuple .fixed) trees) items := by
  have harranged : ∀ u ∈ arrange s (.tuple .fixed) trees, Coherent s u := coherent_arrange htrees
  refine forall₂_of_map_eq h (map_shape_disambiguate s trees).symm fun t ht u hu heq v hv => ?_
  exact (htrees t ht).accepts_of_shape_eq (harranged u hu) heq hv

end TypeTree

namespace Inference

open TypeTree

variable {s : Strategies} {types : List (String × ScalarType)}

/-- The rules that containers are registered with make collections of their own kind. -/
theorem sequenceKind_of_elementKind? {kind : SequenceKind} {rule : ContainerRule} {size : TupleSize}
    {elementKind : ElementKind}
    (hget : (Registry.extended types).get? (.sequence kind) = some (.container rule))
    (hkind : rule.elementKind? size kind = some elementKind) : elementKind.sequenceKind = kind := by
  rw [Registry.get?_extended_of_container (fun _ => ValueKind.noConfusion)] at hget
  -- The rule that makes a tuple of any sequence is not registered for any.
  have hrule : rule ≠ .positional := by
    rintro rfl
    cases kind <;> exact absurd hget (by decide)
  cases rule <;> cases kind <;> first | contradiction | skip
  all_goals
    rw [← Option.some.inj hkind]
    rfl

/-- A sequence type accepts its example, if the types of the items accept the items and digests
    do not collide. -/
theorem accepts_ofElements {run : Inference} {name : String} {kind : SequenceKind}
    {elementKind : ElementKind} {items : List Value} {trees : List TypeTree} {r : Registry}
    {shapes : List Shape} (hfree : Shape.CollisionFree shapes)
    (hkind : elementKind.sequenceKind = kind)
    (htrees : ∀ t ∈ trees, IsKnown run.strategies shapes t)
    (hgiven : ∀ t ∈ trees, t.shape ∈ shapes)
    (hgathered : ∀ t ∈ gathered run.strategies elementKind trees, t.shape ∈ shapes)
    (h : List.Forall₂ (fun v t => accepts r t v = true) items trees) :
    accepts r (.ofElements name (.sequence kind items) elementKind
      (arrange run.strategies elementKind trees)) (.sequence kind items) = true := by
  by_cases hfixed : elementKind = .tuple .fixed
  · subst hfixed
    rw [ofElements, accepts_fixed_iff]
    have hcoherent := fun t ht => (htrees t ht).coherent
    exact ⟨items, by rw [← hkind]; rfl, Or.inr (forall₂_arrange_fixed hcoherent h.flip)⟩
  · rw [ofElements, accepts_collection_iff hfixed]
    refine ⟨items, by rw [hkind], fun v hv => ?_⟩
    -- The tree of an item accepts it, and one of the arranged trees covers that tree.
    rcases exists_mem_right_of_forall₂ h hv with ⟨t, ht, haccepts⟩
    have hcovered : ∃ u ∈ arrange run.strategies elementKind trees,
        ∀ v, accepts r t v = true → accepts r u v = true :=
      exists_mem_arrange_accepts hfree htrees hgiven hgathered ht
    rcases hcovered with ⟨u, hu, hcovers⟩
    exact acceptsAny_iff.mpr (Or.inl ⟨u, hu, hcovers v haccepts⟩)

/-- A mapping type accepts its example, if the types of the values accept the values. -/
theorem accepts_ofFields {run : Inference} {name : String} {entries : List (Value × Value)}
    {children : List (Value × TypeTree)} {r : Registry} (hdistinct : Value.DistinctKeys entries)
    (h : List.Forall₂ (fun e f => f.1 = e.1 ∧ accepts r f.2 e.2 = true) entries children) :
    accepts r (.ofFields name (.mapping entries) (mappingForm run.strategies entries)
      (distinctFields children)) (.mapping entries) = true := by
  have hkeys : children.map (·.1) = entries.map (·.1) :=
    map_eq_of_forall₂ (h.imp fun _ _ hf => hf.1)
  have hd : Value.DistinctKeys children := by
    rw [Value.distinctKeys_iff_keys] at hdistinct ⊢
    rw [hkeys]
    exact hdistinct
  have hfits := fits_mappingForm run.strategies entries
  rw [← hkeys] at hfits
  -- Keys are unique, so no field has been set twice and all of them are there.
  rw [distinctFields_eq_self hd, ofFields]
  cases hform : mappingForm run.strategies entries with
  | record profile =>
    rw [hform] at hfits
    refine accepts_record_iff.mpr ⟨entries, rfl, fun e he => ?_, fun f hf _ => ?_⟩
    -- Each entry has its own field, and each field comes from an entry, whether or not it is
    -- required.
    · rcases exists_mem_right_of_forall₂ h he with ⟨f, hf, hkey, haccepts⟩
      refine ⟨f.2, ?_, haccepts⟩
      rw [Value.entry?_eq_some_iff_of_textKeys hd hfits.textKeys, ← hkey]
      exact hf
    · rcases exists_mem_left_of_forall₂ h hf with ⟨e, he, hkey, _⟩
      rcases hfits.textKeys f hf with ⟨text, htext⟩
      exact ⟨e, he, by rw [← hkey, htext]; exact Value.same_str_iff.mpr rfl⟩
  | generic =>
    refine accepts_generic_iff.mpr ⟨entries, rfl, fun e he => ?_⟩
    rcases exists_mem_right_of_forall₂ h he with ⟨f, hf, hkey, haccepts⟩
    refine ⟨Or.inl ?_, acceptsAny_iff.mpr (Or.inl ⟨f.2, List.mem_map_of_mem hf, haccepts⟩)⟩
    rw [NameSet.mem_ofList, ← hkey]
    exact List.mem_map_of_mem (f := fun g : Value × TypeTree => g.1.typeName) hf

/-- Inference is sound: the type that is inferred from a value accepts it, if the digests of what
    comes up in inference do not collide. -/
theorem accepts_of_infer {name : String} {v : Value} {t : TypeTree} (hv : v.HasUniqueKeys)
    (hfree : CollisionFree ⟨s, .extended types⟩ name v)
    (h : infer ⟨s, .extended types⟩ name v = .ok t) : t.accepts (.extended types) v = true := by
  -- The hypotheses on keys and digests go into the induction, as they are needed at every depth.
  refine node_induct (P := fun name v t => v.HasUniqueKeys →
    CollisionFree ⟨s, .extended types⟩ name v → t.accepts (.extended types) v = true)
    ?_ ?_ ?_ v name t (infer_eq_ok_iff.mp h).2 hv hfree
  · intro name v type hget _ _
    change Registry.get? (.extended types) v.kind = _ at hget
    rw [accepts, Registry.rendered?, hget]
    exact decide_eq_true rfl
  · intro name kind items rule elementKind trees hget hkind htrees haccepts hv hfree
    cases hv with | sequence hitems =>
    -- The trees of the items and their merges are all among what comes up, so no pass over them
    -- mixes up two shapes.
    have hitem : ∀ t ∈ trees, ∃ item ∈ items, node ⟨s, .extended types⟩
        (Naming.childName name (.element item)) item = .ok t := by
      intro t ht
      rcases exists_mem_left_of_forall₂ htrees ht with ⟨item, hitem, hchild⟩
      exact ⟨item, hitem, (child_eq_ok_iff.mp hchild).1⟩
    refine accepts_ofElements hfree (sequenceKind_of_elementKind? hget hkind) (fun t ht => ?_)
      (fun t ht => ?_) (fun t ht => ?_) ?_
    · rcases hitem t ht with ⟨item, hmem, hnode⟩
      exact isKnown_of_node hfree
        (fun u hu => List.mem_map_of_mem (mem_made_of_item hmem hu)) hnode
    · rcases hitem t ht with ⟨item, hmem, hnode⟩
      exact List.mem_map_of_mem
        (mem_made_of_item hmem (mem_made_of_node hnode (mem_nodes_self t)))
    · exact List.mem_map_of_mem (mem_made_of_gathered hget hkind htrees ht)
    · have hboth : ∀ item ∈ items, item.HasUniqueKeys ∧
          CollisionFree ⟨s, .extended types⟩ (Naming.childName name (.element item)) item :=
        fun item hmem => ⟨hitems item hmem, hfree.of_item hmem⟩
      exact ((List.forall₂_and_left _ _).mpr ⟨hboth, haccepts⟩).imp fun _ _ h => h.2 h.1.1 h.1.2
  · intro name entries children _ hfields haccepts hv hfree
    cases hv with | mapping hdistinct hvalues =>
    -- The fields are asked one by one, and what is assumed of the whole value is known of each
    -- part.
    refine accepts_ofFields hdistinct ?_
    rw [← List.zipIdx_map_fst 0 entries, List.forall₂_map_left_iff]
    have hvalue : ∀ e ∈ entries.zipIdx, e.1.2.HasUniqueKeys ∧
        CollisionFree ⟨s, .extended types⟩ (Naming.childName name (.field e.1.1 e.2)) e.1.2 :=
      fun e he => ⟨hvalues e.1 (List.fst_mem_of_mem_zipIdx he), hfree.of_entry he⟩
    have hboth := (List.forall₂_and_left _ _).mpr ⟨hvalue, haccepts⟩
    refine hboth.mp (fun e f h hf => ⟨hf.1, h.2 h.1.1 h.1.2⟩) hfields

/-- Two orders of which one has no price become one type of order, which accepts both. -/
theorem accepts_of_infer_orders :
    ∃ t, infer ⟨{}, .extended [("Decimal", ⟨"Decimal", some "decimal.Decimal"⟩)]⟩ "Orders"
        (.sequence .list [.mapping [(.str "id", .int 1), (.str "price", .atom (.named "Decimal"))],
          .mapping [(.str "id", .int 2)]]) = .ok t ∧
      t.accepts (.extended [("Decimal", ⟨"Decimal", some "decimal.Decimal"⟩)])
        (.sequence .list [.mapping [(.str "id", .int 1), (.str "price", .atom (.named "Decimal"))],
          .mapping [(.str "id", .int 2)]]) = true := by
  refine ⟨_, rfl, @accepts_of_infer {} _ "Orders" _ _ (.sequence fun v hv => ?_)
    (by decide +kernel) rfl⟩
  rw [List.mem_pair] at hv
  rcases hv with rfl | rfl
  · refine .mapping (List.pairwise_pair.mpr (by decide)) fun e he => ?_
    rw [List.mem_pair] at he
    rcases he with rfl | rfl <;> exact .atom _
  · refine .mapping (List.pairwise_singleton _ _) fun e he => ?_
    rw [List.mem_singleton.mp he]
    exact .atom _

/-- Of two dicts whose digests collide the first one stands for both, and it has no field of the
    second one. -/
theorem not_accepts_of_infer_twins :
    (Value.sequence .list [twins.1, twins.2]).HasUniqueKeys ∧
    ∃ t, infer ⟨{}, .extended []⟩ "E" (.sequence .list [twins.1, twins.2]) = .ok t ∧
      t.accepts (.extended []) (.sequence .list [twins.1, twins.2]) = false :=
  ⟨by decide +kernel, _, rfl, by decide +kernel⟩

end Inference

end TypeSketch
