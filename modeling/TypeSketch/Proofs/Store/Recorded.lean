import TypeSketch.Proofs.Expansion.ToShape
import TypeSketch.Proofs.Render.Distinguished
import TypeSketch.Proofs.Store.Equivalence
import TypeSketch.Proofs.Store.Faithful

/-!
# Recorded Digests

The digest that a store records for a class is that of its shape, and what a store compares
is the text of its module. The two go together as far as equal texts have equal shapes: then
a class that is found unchanged has the digest that is recorded, and no two elements of a
sequence are declared with one type under two names.

The text determines the type, and the type determines the shape but for the keys of generic
mappings: the text absorbs `int` among the types of keys, and the digest is made from all of
them. So the two part where keys of both types of numbers are mixed.

## Theorems

* `Inference.shape_eq_of_text_eq`: One text comes from one shape.
* `Inference.exists_entry_of_unchanged`: The entry of a class that is found unchanged.
* `TypeTree.IsDistinguished.distinguishes_types`: Elements are told apart by their types.
* `Inference.digest_eq_of_text_eq`: The digest follows the text.
-/

namespace TypeSketch

namespace TypeTree

variable {s : Strategies} {t c d : TypeTree}

/-- Nodes of one type in a tree have one shape, if the keys of its mappings agree. -/
theorem Coherent.shape_eq_of_expandedType_eq (ht : Coherent s t) (hkeys : KeysAgree t.nodes)
    (hc : c ∈ t.nodes) (hd : d ∈ t.nodes) (h : c.expandedType = d.expandedType) :
    c.shape = d.shape := by
  refine (ht.of_mem_nodes hc).shape_eq_of_same (ht.of_mem_nodes hd) (hkeys.mono fun a ha => ?_)
    (expandedType_eq_iff.mp h)
  rcases List.mem_append.mp ha with ha | ha
  · exact mem_nodes_trans hc ha
  · exact mem_nodes_trans hd ha

/-- Elements of one type that get a declaration are called alike, and unless every position
    keeps its element there is one element of each type. -/
theorem IsDistinguished.distinguishes_types (h : IsDistinguished s t) (ht : Coherent s t)
    (hkeys : KeysAgree t.nodes)
    (haliased : ∀ u ∈ t.nodes, u.isAliased s = u.shape.isAliased s) {name : String} {v : Value}
    {kind : ElementKind} {height : Nat} {shape : Shape} {elements : List TypeTree}
    (hmem : sequence name v kind height shape elements ∈ t.nodes) :
    (∀ c ∈ elements, ∀ d ∈ elements, c.isAliased s = true → c.expandedType = d.expandedType →
      c.name = d.name) ∧
    (kind ≠ .tuple .fixed → (elements.map expandedType).Nodup) := by
  have hnode : ∀ c ∈ elements, c ∈ t.nodes := fun c hc =>
    mem_nodes_trans hmem (mem_nodes_of_child hc (mem_nodes_self c))
  -- Nodes of one tree that have the same type have the same shape.
  have hshape : ∀ c ∈ elements, ∀ d ∈ elements, c.expandedType = d.expandedType →
      c.shape = d.shape :=
    fun c hc d hd => ht.shape_eq_of_expandedType_eq hkeys (hnode c hc) (hnode d hd)
  have hdistinguishes := h name v kind height shape elements hmem
  refine ⟨fun c hc d hd hca htype => ?_, fun hkind => ?_⟩
  · have hcd := hshape c hc d hd htype
    refine hdistinguishes.name_eq c hc d hd hca ?_ hcd
    rw [haliased d (hnode d hd), ← hcd, ← haliased c (hnode c hc), hca]
  · have hnodup := hdistinguishes.nodup hkind
    rw [List.Nodup, List.pairwise_map] at hnodup ⊢
    exact hnodup.imp_of_mem fun hc hd hne htype =>
      hne (congrArg Shape.digest (hshape _ hc _ hd htype))

end TypeTree

namespace Inference

open TypeTree Store

section Texts

variable {s : Strategies} {name : String} {v w : Value} {t u : TypeTree}
  (hfree : CollisionFree { strategies := s } name v)
  (hfree' : CollisionFree { strategies := s } name w)

include hfree hfree'

/-- Examples whose declarations have one text have one shape, if the keys of mappings agree. -/
theorem shape_eq_of_text_eq {a b : Session} (hv : v.IsOpaqueFree) (hw : w.IsOpaqueFree)
    (ht : infer { strategies := s } name v = .ok t) (hu : infer { strategies := s } name w = .ok u)
    (ha : t.render s = .ok a) (hb : u.render s = .ok b) (hkeys : KeysAgree (t.nodes ++ u.nodes))
    (htext : a.declarationsText = b.declarationsText) : t.shape = u.shape := by
  have hnode := (infer_eq_ok_iff.mp ht).2
  have hnode' := (infer_eq_ok_iff.mp hu).2
  exact (coherent_of_node hnode).shape_eq_of_same (coherent_of_node hnode') hkeys
    (same_expand_of_text_eq hv hw ht hu (hfree.nodes hnode) (hfree'.nodes hnode') ha hb htext)

/-- Where the store has the class of one example and finds another unchanged, the entry has
    the digest of the other, too. -/
theorem exists_entry_of_unchanged {store last : Store} {stub : Stub} {world after : World}
    (hv : v.IsOpaqueFree) (hw : w.IsOpaqueFree)
    (ht : infer { strategies := s } name v = .ok t) (hu : infer { strategies := s } name w = .ok u)
    (hkeys : KeysAgree (t.nodes ++ u.nodes)) (hstub : Stub.ofValue s name v = .ok stub)
    (hholds : store.Holds world.disk stub)
    (hrun : (store.commitValue s name w).run world = ((.ok .unchanged, last), after)) :
    ∃ e, store.manifest.entry? name = some e ∧ e.digest = u.shape.digest := by
  rcases commits_of_run_commitValue hrun with ⟨other, hother, hcommits⟩
  rcases Stub.ofValue_eq_ok_iff.mp hstub with ⟨t', a, ht', ha, rfl⟩
  rcases Stub.ofValue_eq_ok_iff.mp hother with ⟨u', b, hu', hb, rfl⟩
  rw [ht, Except.ok.injEq] at ht'
  rw [hu, Except.ok.injEq] at hu'
  subst ht' hu'
  -- The module that is there is the one that has been committed for the first example.
  rcases hcommits.exists_of_unchanged with ⟨stored, hread, hequivalent⟩
  rw [hholds.readText_module, Except.ok.injEq] at hread
  subst hread
  have htext := (isWritable_of_render hv ht ha).declarationsText_eq
    (isWritable_of_render hw hu hb) (of_decide_eq_true hequivalent)
  rcases hholds.exists_entry with ⟨e, hentry, hdigest⟩
  refine ⟨e, hentry, hdigest.trans ?_⟩
  exact congrArg Shape.digest (shape_eq_of_text_eq hfree hfree' hv hw ht hu ha hb hkeys htext)

/-- The digest follows the text of the declarations, wherever generic mappings of one type have
    keys of the same types and the digests that come up do not collide: examples with one text
    have one digest, a class that is found unchanged has the digest that is recorded, and
    elements of one sequence that are declared with one type are called alike. -/
theorem digest_eq_of_text_eq {a b : Session} (hv : v.IsOpaqueFree) (hw : w.IsOpaqueFree)
    (ht : infer { strategies := s } name v = .ok t) (hu : infer { strategies := s } name w = .ok u)
    (ha : t.render s = .ok a) (hb : u.render s = .ok b) (hkeys : KeysAgree (t.nodes ++ u.nodes)) :
    (a.declarationsText = b.declarationsText → t.shape.digest = u.shape.digest) ∧
    (∀ (store last : Store) (stub : Stub) (world after : World),
      Stub.ofValue s name v = .ok stub → store.Holds world.disk stub →
      (store.commitValue s name w).run world = ((.ok .unchanged, last), after) →
        ∃ e, store.manifest.entry? name = some e ∧ e.digest = u.shape.digest) ∧
    ∀ elementsName x kind height shape elements,
      sequence elementsName x kind height shape elements ∈ t.nodes →
        (∀ c ∈ elements, ∀ d ∈ elements, c.isAliased s = true →
          c.expandedType = d.expandedType → c.name = d.name) ∧
        (kind ≠ .tuple .fixed → (elements.map expandedType).Nodup) := by
  refine ⟨fun htext => ?_, fun store last stub world after hstub hholds hrun => ?_,
    fun _ _ _ _ _ _ hmem => ?_⟩
  · exact congrArg Shape.digest (shape_eq_of_text_eq hfree hfree' hv hw ht hu ha hb hkeys htext)
  · exact exists_entry_of_unchanged hfree hfree' hv hw ht hu hkeys hstub hholds hrun
  · have hnode := (infer_eq_ok_iff.mp ht).2
    exact (isDistinguished_of_infer (@rfl _ (Registry.extended [])) ht).distinguishes_types
      (coherent_of_node hnode) (hkeys.mono fun a ha => List.mem_append_left _ ha)
      (fun _ hu => hfree.isAliased_eq hnode hu) hmem

end Texts

/-- Tables with numbers for keys have one text and one digest, whatever the numbers are. Where
    the first one has been committed, the second one is found unchanged. -/
theorem digest_eq_of_text_eq_tables :
    ∃ t u a b, ∃ (store : Store) (stub : Stub) (world : World),
      infer {} "E" (.sequence .list [.mapping [(.int 1, .str "a")]]) = .ok t ∧
      infer {} "E" (.sequence .list [.mapping [(.int 2, .str "b"), (.int 3, .str "c")]]) = .ok u ∧
      t.render {} = .ok a ∧ u.render {} = .ok b ∧ KeysAgree (t.nodes ++ u.nodes) ∧
      a.declarationsText = b.declarationsText ∧ t.shape.digest = u.shape.digest ∧
      Stub.ofValue {} "E" (.sequence .list [.mapping [(.int 1, .str "a")]]) = .ok stub ∧
      store.Holds world.disk stub ∧
      (store.commitValue {} "E"
        (.sequence .list [.mapping [(.int 2, .str "b"), (.int 3, .str "c")]])).run world =
          ((.ok .unchanged, store), world) ∧
      ∃ e, store.manifest.entry? "E" = some e ∧ e.digest = u.shape.digest := by
  -- The keys of the two tables are numbers, and the values are texts in both.
  have hdigest := @digest_eq_of_text_eq {} "E" (.sequence .list [.mapping [(.int 1, .str "a")]])
    (.sequence .list [.mapping [(.int 2, .str "b"), (.int 3, .str "c")]]) _ _
    (by decide +kernel) (by decide +kernel) _ _ (by decide) (by decide) rfl rfl rfl rfl (by decide +kernel)
  let stub : Stub := ⟨"E", header ++
    "\nfrom typing import Dict, List\n\nEDict = Dict[int, str]\n\nE = List[EDict]\n",
    12327886399092034123⟩
  let e : ManifestEntry := ⟨"E.pyi", stub.digest, ⟨0, 0, 0⟩, ⟨0, 0, 0⟩⟩
  let store : Store := ⟨"stubs", .validate, ⟨[("E", e)]⟩⟩
  let world : World :=
    ⟨⟨[(["stubs"], .directory), (["stubs", "E.pyi"], .file (.text stub.source))]⟩, ⟨0, 0, 0⟩⟩
  have hstub : Stub.ofValue {} "E" (.sequence .list [.mapping [(.int 1, .str "a")]]) = .ok stub := by
    decide +kernel
  have hholds : store.Holds world.disk stub := ⟨⟨e, rfl, rfl⟩, by decide +kernel⟩
  have hrun : (store.commitValue {} "E"
      (.sequence .list [.mapping [(.int 2, .str "b"), (.int 3, .str "c")]])).run world =
        ((.ok .unchanged, store), world) := by
    decide +kernel
  exact ⟨_, _, _, _, store, stub, world, rfl, rfl, rfl, rfl, by decide +kernel, by decide +kernel,
    hdigest.1 (by decide +kernel), hstub, hholds, hrun,
    hdigest.2.1 store store stub world world hstub hholds hrun⟩

theorem union_int_float :
    Spelling.union [.name "int", .name "float"] = ⟨.name "float", []⟩ := by
  have hsorted : Spelling.sortByText [.name "int", .name "float"] = [.name "float", .name "int"] := by
    simp [Spelling.sortByText, TypeExpr.text, List.mergeSort]
  rw [Spelling.union_eq, Spelling.members, hsorted]
  rfl

/-- A mapping with keys `1` and `1.5` and one with the key `1.5` have one text, in which only
    `float` is left, and they have different digests. -/
theorem digest_ne_of_mixed_keys :
    ∃ t u a b, infer {} "E" (.mapping [(.int 1, .str "a"),
        (.atom (.float ⟨0x3ff8000000000000⟩), .str "b")]) = .ok t ∧
      infer {} "E" (.mapping [(.atom (.float ⟨0x3ff8000000000000⟩), .str "a")]) = .ok u ∧
      t.render {} = .ok a ∧ u.render {} = .ok b ∧
      a.declarationsText = b.declarationsText ∧ t.shape.digest ≠ u.shape.digest := by
  refine ⟨_, _, _, _, rfl, rfl, rfl, rfl, ?_, by decide +kernel⟩
  -- Several key types are sorted, which does not compute, so their union is rewritten first.
  change "\n\n".intercalate [(Declaration.aliasOf "E" (.apply "Dict"
      [(Spelling.union [.name "int", .name "float"]).written,
        (Spelling.union [.name "str", .name "str"]).written])).text] =
    "\n\n".intercalate [(Declaration.aliasOf "E" (.apply "Dict"
      [(Spelling.union [.name "float"]).written, (Spelling.union [.name "str"]).written])).text]
  rw [union_int_float]
  decide +kernel

end Inference

end TypeSketch
