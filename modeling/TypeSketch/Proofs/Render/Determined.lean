import Mathlib.Data.List.Nodup
import TypeSketch.Proofs.Render.Reading
import TypeSketch.Proofs.Render.Sessions

/-!
# The Text Determines the Type

Two examples whose declarations have one text are of one type, so a type can be checked by
comparing texts. The declarations are read back from the text, and the types are read back
from the declarations, from the first one to the last.

A name in a declaration is that of an earlier one, and the table says that the node it is
used for has the digest of the node it has been declared for. As long as digests do not
collide, the two have one shape. On both sides the names are those of the declarations in
order, so equal names belong to declarations at one place, where the types are known to be
the same.

Where two nodes of one name have one digest and different shapes, one declaration stands for
both, and the text says nothing of the second one. So the digests of the nodes of each tree
must not collide.

## Theorems

* `Session.agreeOn_of_earlier`, `Session.same_expand_of_blocks_eq`: Closed sessions with the
  same declarations.
* `Inference.isSpellable_of_infer`: Inferred trees can be spelled and read back.
* `Inference.same_expand_of_text_eq`, `Inference.expandedType_eq_of_text_eq`: The text
  determines the type of the root.
-/

namespace TypeSketch

namespace Session

open TypeTree

variable {s : Strategies} {shapes shapes' : List Shape}

theorem name_undocumented (t : TypeTree) : (t.spellDeclaration s).written.undocumented.name = t.name := by
  rw [← name_spellDeclaration s t]
  cases (t.spellDeclaration s).written <;> rfl

theorem IsClosedOver.nodup_names {session : Session} {trees : List TypeTree}
    (h : session.IsClosedOver (trees.map (s, ·))) : (trees.map name).Nodup := by
  have hnames := h.names_nodup
  rw [h.declared_eq, List.map_map, List.map_map] at hnames
  exact hnames

/-- A node that is referred to is of the type of an earlier one under its name, if the digests of
    nodes do not collide. -/
theorem IsClosedOver.exists_earlier {session : Session} {before after : List TypeTree} {t u : TypeTree}
    (hfree : Shape.CollisionFree shapes)
    (hlisted : ∀ x ∈ before ++ t :: after, ∀ y ∈ x.nodes, y.shape ∈ shapes)
    (h : session.IsClosedOver ((before ++ t :: after).map (s, ·))) (hu : u ∈ t.references s) :
    ∃ m ∈ before, m.name = u.name ∧ m.shape = u.shape := by
  rw [List.map_append, List.map_cons] at h
  rcases h.references_earlier _ _ _ rfl u hu with ⟨n, hn, hname, hdigest⟩
  rcases List.mem_map.mp hn with ⟨m, hm, rfl⟩
  have hnode : u ∈ t.nodes := mem_nodes.mpr (Or.inr (mem_references hu).1)
  exact ⟨m, hm, hname, hfree _ (hlisted m (List.mem_append_left _ hm) m (mem_nodes_self m)) _
    (hlisted t (List.mem_append_right _ List.mem_cons_self) u hnode) hdigest⟩

/-- Where two closed sessions have come to the same types, the next two nodes refer to the
    same types. -/
theorem agreeOn_of_earlier {a b : Session} {before after : List (TypeTree × TypeTree)}
    {t u : TypeTree} (hfree : Shape.CollisionFree shapes) (hfree' : Shape.CollisionFree shapes')
    (hlisted : ∀ x ∈ (before ++ (t, u) :: after).map (·.1), ∀ y ∈ x.nodes, y.shape ∈ shapes)
    (hlisted' : ∀ x ∈ (before ++ (t, u) :: after).map (·.2), ∀ y ∈ x.nodes, y.shape ∈ shapes')
    (ha : a.IsClosedOver (((before ++ (t, u) :: after).map (·.1)).map (s, ·)))
    (hb : b.IsClosedOver (((before ++ (t, u) :: after).map (·.2)).map (s, ·)))
    (hspell : ∀ p ∈ before ++ (t, u) :: after, IsSpellable s p.1 ∧ IsSpellable s p.2)
    (hname : ∀ p ∈ before, p.1.name = p.2.name)
    (hbefore : ∀ p ∈ before, p.1.expand.same p.2.expand = true) :
    AgreeOn (t.references s) (u.references s) := by
  -- Coherent nodes of one shape are of one type.
  have hshape : ∀ {t u : TypeTree}, IsSpellable s t → IsSpellable s u → t.shape = u.shape →
      t.expand.same u.expand = true :=
    fun ht hu heq => expandedType_eq_iff.mp (ht.coherent.expandedType_eq hu.coherent heq)
  have hreference : ∀ {t u : TypeTree}, IsSpellable s t → u ∈ t.references s → IsSpellable s u :=
    fun ht hu => ht.of_mem_nodes (mem_nodes.mpr (Or.inr (mem_references hu).1))
  have hearlier : ∀ {p : TypeTree × TypeTree}, p ∈ before → p ∈ before ++ (t, u) :: after :=
    fun hp => List.mem_append_left _ hp
  rcases hspell (t, u) (List.mem_append_right _ List.mem_cons_self) with ⟨ht, hu⟩
  have hnodup := hb.nodup_names
  intro x hx y hy hxy
  rw [List.map_append, List.map_cons] at ha hb hlisted hlisted'
  rcases ha.exists_earlier hfree hlisted hx with ⟨m, hm, hmx, hmshape⟩
  rcases hb.exists_earlier hfree' hlisted' hy with ⟨n, hn, hny, hnshape⟩
  rcases List.mem_map.mp hm with ⟨p, hp, rfl⟩
  rcases List.mem_map.mp hn with ⟨q, hq, rfl⟩
  -- Both are declared at one place, because no name is declared twice.
  have hplace : p.2 = q.2 := by
    refine List.inj_on_of_nodup_map hnodup (List.mem_map_of_mem (hearlier hp))
      (List.mem_map_of_mem (hearlier hq)) ?_
    rw [← hname p hp, hmx, hxy, hny]
  have hmiddle := hbefore p hp
  rw [hplace] at hmiddle
  have hxp := hshape (hreference ht hx) (hspell p (hearlier hp)).1 hmshape.symm
  have hqy := hshape (hspell q (hearlier hq)).2 (hreference hu hy) hnshape
  exact Expansion.same_trans hxp (Expansion.same_trans hmiddle hqy)

/-- Closed sessions with the same declarations are about nodes of the same types. -/
theorem same_expand_of_blocks_eq {a b : Session} {pairs : List (TypeTree × TypeTree)}
    (hfree : Shape.CollisionFree shapes) (hfree' : Shape.CollisionFree shapes')
    (hlisted : ∀ x ∈ pairs.map (·.1), ∀ y ∈ x.nodes, y.shape ∈ shapes)
    (hlisted' : ∀ x ∈ pairs.map (·.2), ∀ y ∈ x.nodes, y.shape ∈ shapes')
    (ha : a.IsClosedOver ((pairs.map (·.1)).map (s, ·)))
    (hb : b.IsClosedOver ((pairs.map (·.2)).map (s, ·)))
    (hspell : ∀ p ∈ pairs, IsSpellable s p.1 ∧ IsSpellable s p.2)
    (h : a.blocks.map (·.undocumented) = b.blocks.map (·.undocumented)) :
    ∀ p ∈ pairs, p.1.expand.same p.2.expand = true := by
  have hdeclaration : ∀ p ∈ pairs, (p.1.spellDeclaration s).written.undocumented =
      (p.2.spellDeclaration s).written.undocumented := by
    rw [ha.blocks_eq, hb.blocks_eq] at h
    simp only [List.map_map] at h
    exact List.map_inj_left.mp h
  -- The text of a declaration has the name of its node, which is all that a reference to it needs.
  have hname : ∀ p ∈ pairs, p.1.name = p.2.name := by
    intro p hp
    rw [← name_undocumented (s := s) p.1, hdeclaration p hp, name_undocumented]
  -- The induction is on the pairs that are left, with the types known of those before.
  have hrest : ∀ after before : List (TypeTree × TypeTree), pairs = before ++ after →
      (∀ p ∈ before, p.1.expand.same p.2.expand = true) →
        ∀ p ∈ after, p.1.expand.same p.2.expand = true := by
    intro after
    induction after with
    | nil => exact fun _ _ _ p hp => absurd hp List.not_mem_nil
    | cons p after ih =>
      rcases p with ⟨t, u⟩
      intro before hpairs hbefore
      have hp : (t, u) ∈ pairs := by
        rw [hpairs]
        exact List.mem_append_right _ List.mem_cons_self
      have hsame : t.expand.same u.expand = true := by
        rcases hspell (t, u) hp with ⟨ht, hu⟩
        refine same_expand_of_declaration ht hu ?_ (hdeclaration (t, u) hp)
        rw [hpairs] at ha hb hspell hname hlisted hlisted'
        exact agreeOn_of_earlier hfree hfree' hlisted hlisted' ha hb hspell
          (fun q hq => hname q (List.mem_append_left _ hq)) hbefore
      intro q hq
      rcases List.mem_cons.mp hq with rfl | hq
      · exact hsame
      · refine ih (before ++ [(t, u)]) (by rw [hpairs, List.append_assoc]; rfl) (fun r hr => ?_) q hq
        rcases List.mem_append.mp hr with hr | hr
        · exact hbefore r hr
        · rw [List.mem_singleton.mp hr]
          exact hsame
  exact hrest pairs [] rfl fun p hp => absurd hp List.not_mem_nil

end Session

namespace Inference

open TypeTree

/-- Inferred trees of examples without opaque parts can be spelled and read back. -/
theorem isSpellable_of_infer {s : Strategies} {name : String} {v : Value} {t : TypeTree}
    (hfree : v.IsOpaqueFree) (h : infer { strategies := s } name v = .ok t) : IsSpellable s t := by
  rcases infer_eq_ok_iff.mp h with ⟨hidentifier, hnode⟩
  refine ⟨coherent_of_node hnode, wellNamed_of_infer h, isBuiltin_of_infer hfree h, ?_⟩
  rw [name_of_node hnode]
  rintro rfl
  exact absurd hidentifier (by decide)

/-- The declarations that a tree is rendered to are plain, and they are those of nodes that
    can be spelled, the root being the last one. -/
theorem exists_spelled_render {s : Strategies} {name : String} {v : Value} {t : TypeTree}
    {session : Session} (hfree : v.IsOpaqueFree) (h : infer { strategies := s } name v = .ok t)
    (hrender : t.render s = .ok session) :
    ∃ below : List TypeTree, session.IsClosedOver ((below ++ [t]).map (s, ·)) ∧
      (∀ u ∈ below ++ [t], u ∈ t.nodes ∧ IsSpellable s u) ∧ ∀ d ∈ session.blocks, d.IsPlain := by
  have hspell := isSpellable_of_infer hfree h
  rcases exists_isClosedOver_render hspell.wellNamed hrender with ⟨below, hclosed, hbelow, _⟩
  have hnodes : ∀ u ∈ below ++ [t], u ∈ t.nodes ∧ IsSpellable s u ∧ Naming.IsPlain u.name := by
    intro u hu
    rcases List.mem_append.mp hu with hu | hu
    · rcases hbelow u hu with ⟨hbelow, haliased⟩
      have hnode := mem_nodes.mpr (Or.inr hbelow)
      have hu := hspell.of_mem_nodes hnode
      exact ⟨hnode, hu, hu.wellNamed.isPlain haliased⟩
    · rcases infer_eq_ok_iff.mp h with ⟨hidentifier, hnode⟩
      rw [List.mem_singleton.mp hu, name_of_node hnode]
      exact ⟨mem_nodes_self t, hspell, Naming.isPlain_of_isIdentifier hidentifier⟩
  -- A block is the declaration of a node with a plain name.
  refine ⟨below, hclosed, fun u hu => ⟨(hnodes u hu).1, (hnodes u hu).2.1⟩, fun d hd => ?_⟩
  rw [hclosed.blocks_eq, List.map_map] at hd
  rcases List.mem_map.mp hd with ⟨u, hu, rfl⟩
  exact (hnodes u hu).2.1.isPlain_spellDeclaration (hnodes u hu).2.2

/-- Examples whose declarations have one text are of types that are the same, if the digests of
    the nodes of each tree do not collide. -/
theorem same_expand_of_text_eq {s : Strategies} {name : String} {v w : Value} {t u : TypeTree}
    {a b : Session} (hv : v.IsOpaqueFree) (hw : w.IsOpaqueFree)
    (ht : infer { strategies := s } name v = .ok t) (hu : infer { strategies := s } name w = .ok u)
    (hfree : Shape.CollisionFree (t.nodes.map shape))
    (hfree' : Shape.CollisionFree (u.nodes.map shape))
    (ha : t.render s = .ok a) (hb : u.render s = .ok b)
    (htext : a.declarationsText = b.declarationsText) : t.expand.same u.expand = true := by
  rcases exists_spelled_render hv ht ha with ⟨below, hclosed, hspell, hplain⟩
  rcases exists_spelled_render hw hu hb with ⟨below', hclosed', hspell', hplain'⟩
  have hblocks : a.blocks.map (·.undocumented) = b.blocks.map (·.undocumented) := by
    refine Declaration.undocumented_eq_of_text_eq hplain hplain' ?_ ?_ htext
    · rw [hclosed.blocks_eq]
      simp
    · rw [hclosed'.blocks_eq]
      simp
  -- There are as many declarations on both sides, so the nodes can be paired.
  have hlength : below.length = below'.length := by
    have hcounts := congrArg List.length hblocks
    rw [hclosed.blocks_eq, hclosed'.blocks_eq] at hcounts
    simpa using hcounts
  have hzip : (below ++ [t]).zip (below' ++ [u]) = below.zip below' ++ [(t, u)] :=
    List.zip_append hlength
  have hleft : ((below ++ [t]).zip (below' ++ [u])).map (·.1) = below ++ [t] :=
    List.map_fst_zip (by simp [hlength])
  have hright : ((below ++ [t]).zip (below' ++ [u])).map (·.2) = below' ++ [u] :=
    List.map_snd_zip (by simp [hlength])
  rw [← hleft] at hclosed
  rw [← hright] at hclosed'
  -- The declared nodes are nodes of the tree, so the assumption on collisions covers them.
  have hlisted : ∀ {root : TypeTree} {trees : List TypeTree}, (∀ x ∈ trees, x ∈ root.nodes ∧
      IsSpellable s x) → ∀ x ∈ trees, ∀ y ∈ x.nodes, y.shape ∈ root.nodes.map shape :=
    fun h x hx y hy => List.mem_map_of_mem (mem_nodes_trans (h x hx).1 hy)
  refine Session.same_expand_of_blocks_eq hfree hfree' ?_ ?_ hclosed hclosed' (fun p hp => ?_)
    hblocks (t, u) ?_
  · rw [hleft]
    exact hlisted hspell
  · rw [hright]
    exact hlisted hspell'
  · exact ⟨(hspell _ (List.of_mem_zip hp).1).2, (hspell' _ (List.of_mem_zip hp).2).2⟩
  · rw [hzip]
    exact List.mem_append_right _ (List.mem_singleton_self _)

/-- The text of the declarations determines the type, if the digests of the nodes of each tree do not
    collide. -/
theorem expandedType_eq_of_text_eq {s : Strategies} {name : String} {v w : Value} {t u : TypeTree}
    {a b : Session} (hv : v.IsOpaqueFree) (hw : w.IsOpaqueFree)
    (ht : infer { strategies := s } name v = .ok t) (hu : infer { strategies := s } name w = .ok u)
    (hfree : Shape.CollisionFree (t.nodes.map shape))
    (hfree' : Shape.CollisionFree (u.nodes.map shape))
    (ha : t.render s = .ok a) (hb : u.render s = .ok b)
    (htext : a.declarationsText = b.declarationsText) : t.expandedType = u.expandedType :=
  expandedType_eq_iff.mpr (same_expand_of_text_eq hv hw ht hu hfree hfree' ha hb htext)

/-- Lists of one and of two orders have one text, and they are of one type. -/
theorem expandedType_eq_of_text_eq_orders :
    ∃ t u a b, infer {} "Shop" (.mapping [(.str "orders", .sequence .list [.int 1])]) = .ok t ∧
      infer {} "Shop" (.mapping [(.str "orders", .sequence .list [.int 2, .int 3])]) = .ok u ∧
      t.render {} = .ok a ∧ u.render {} = .ok b ∧ a.declarationsText = b.declarationsText ∧
      t.expandedType = u.expandedType := by
  have hint : ∀ i, (Value.int i).IsOpaqueFree := fun i => .atom fun _ => Atom.noConfusion
  -- There are no opaque values in these lists, however long they are.
  have hfree : ∀ items : List Value, (∀ item ∈ items, ∃ i, item = .int i) →
      (Value.mapping [(.str "orders", .sequence .list items)]).IsOpaqueFree := by
    intro items hitems
    refine .mapping (fun e he => ?_) fun e he => ?_
    · rw [List.mem_singleton.mp he]
      exact .atom fun _ => Atom.noConfusion
    · rw [List.mem_singleton.mp he]
      refine .sequence fun item hitem => ?_
      rcases hitems item hitem with ⟨i, rfl⟩
      exact hint i
  have htext := @expandedType_eq_of_text_eq {} "Shop"
    (.mapping [(.str "orders", .sequence .list [.int 1])])
    (.mapping [(.str "orders", .sequence .list [.int 2, .int 3])]) _ _ _ _
    (hfree _ (by simp)) (hfree _ (by simp)) rfl rfl (by decide +kernel) (by decide +kernel) rfl rfl
    (by decide +kernel)
  exact ⟨_, _, _, _, rfl, rfl, rfl, rfl, by decide +kernel, htext⟩

/-- Two keys of one name with dicts whose digests collide. There is one declaration for both, as
    there is if both keys have the first dict. -/
theorem expandedType_ne_of_twins :
    ∃ t u a b, infer {} "E" (.mapping [(.str "a_b", twins.1), (.str "aB", twins.2)]) = .ok t ∧
      infer {} "E" (.mapping [(.str "a_b", twins.1), (.str "aB", twins.1)]) = .ok u ∧
      t.render {} = .ok a ∧ u.render {} = .ok b ∧
      a.declarationsText = b.declarationsText ∧ t.expandedType ≠ u.expandedType := by
  obtain ⟨t, u, ht, hu, hsame, hrender⟩ : ∃ t u,
      infer {} "E" (.mapping [(.str "a_b", twins.1), (.str "aB", twins.2)]) = .ok t ∧
      infer {} "E" (.mapping [(.str "a_b", twins.1), (.str "aB", twins.1)]) = .ok u ∧
      ¬t.expand.same u.expand = true ∧
      ((t.render {}).bind fun a => (u.render {}).map fun b =>
        decide (a.declarationsText = b.declarationsText)) = .ok true :=
    ⟨_, _, rfl, rfl, by decide +kernel, by decide +kernel⟩
  rcases bind_eq_ok_iff.mp hrender with ⟨a, ha, hb⟩
  rcases map_eq_ok_iff.mp hb with ⟨b, hb, htext⟩
  exact ⟨t, u, a, b, ht, hu, ha, hb, of_decide_eq_true htext,
    fun h => hsame (expandedType_eq_iff.mp h)⟩

end Inference

end TypeSketch
