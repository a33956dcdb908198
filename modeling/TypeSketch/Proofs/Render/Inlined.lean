import Mathlib.Data.List.Nodup
import TypeSketch.Proofs.Render.Reading
import TypeSketch.Proofs.Shape.Canonical

/-!
# Types Written in Full

The text of a tree in which nothing gets a declaration. No name stands in it, so the shape
determines it: a shape has the kind of the node and the shapes of its parts, and the text
of a union depends only on which texts stand in it.

Shapes absorb integers as unions do, but by the name of a scalar type instead of a text.
The two agree, because a container is written with a bracket.

## Main definitions

* `Spelling.HasText`: The texts that stand in a union.
* `TypeTree.IsInlined`: Trees in which nothing gets a declaration.

## Theorems

* `Spelling.text_union_congr`: The text of a union depends only on the texts in it.
* `TypeTree.text_spell_eq_of_shape_eq`: The shape determines the text.
-/

namespace TypeSketch

theorem TypeExpr.text_apply_congr (constructor : String) {arguments others : List TypeExpr}
    (h : arguments.map (·.text) = others.map (·.text)) :
    (TypeExpr.apply constructor arguments).text = (TypeExpr.apply constructor others).text := by
  rw [TypeExpr.text, TypeExpr.text, TypeExpr.texts_eq_map, TypeExpr.texts_eq_map, h]

namespace Spelling

section Texts

variable {types others : List TypeExpr}

theorem nodup_texts_keep (kept : List TypeExpr) (h : (kept.map (·.text)).Nodup) :
    ((types.foldl (fun kept type => if kept.any (·.text = type.text) then kept else kept ++ [type])
      kept).map (·.text)).Nodup := by
  induction types generalizing kept with
  | nil => exact h
  | cons type rest ih =>
    refine ih _ ?_
    dsimp only
    split
    · exact h
    · next hfresh =>
      rw [List.map_append, List.map_singleton, ← List.concat_eq_append, List.nodup_concat]
      refine ⟨fun hmem => hfresh ?_, h⟩
      rcases List.mem_map.mp hmem with ⟨e, he, htext⟩
      exact List.any_eq_true.mpr ⟨e, he, decide_eq_true htext⟩

/-- The texts of the members, in ascending order. -/
theorem ascending_texts_members (types : List TypeExpr) :
    ((members types).map (·.text)).Pairwise (· < ·) := by
  have hsorted : (sortByText types).Pairwise fun e f => e.text < f.text := by
    have hle := @List.pairwise_mergeSort _ (fun e f : TypeExpr => decide (e.text ≤ f.text))
      (fun e f g hef hfg => decide_eq_true
        (String.le_trans (of_decide_eq_true hef) (of_decide_eq_true hfg)))
      (fun e f => by
        rw [Bool.or_eq_true, decide_eq_true_eq, decide_eq_true_eq]
        exact String.le_total e.text f.text)
      (types.foldl (fun kept type =>
        if kept.any (·.text = type.text) then kept else kept ++ [type]) [])
    -- Sorting gives an order in which texts may repeat, and that none repeats has been taken care
    -- of before.
    have hnodup : ((sortByText types).map (·.text)).Nodup :=
      ((List.mergeSort_perm _ _).map TypeExpr.text).nodup_iff.mpr
        (nodup_texts_keep [] List.nodup_nil)
    refine (hle.and (List.pairwise_map.mp hnodup)).imp fun {e f} h => ?_
    exact Std.lt_of_le_of_ne (of_decide_eq_true h.1) h.2
  refine List.pairwise_map.mpr (List.Pairwise.sublist ?_ hsorted)
  rw [members, absorbIntegers]
  split
  · exact List.filter_sublist
  · exact List.Sublist.refl _

/-- A text stands in a union of the types: it is that of one of them, and it is none that a
    `float` takes in. -/
def HasText (types : List TypeExpr) (text : String) : Prop :=
  (∃ e ∈ types, e.text = text) ∧ ((∃ e ∈ types, e.text = "float") → text ≠ "int")

theorem mem_texts_members {text : String} :
    text ∈ (members types).map (·.text) ↔ HasText types text := by
  rw [List.mem_map]
  constructor
  · rintro ⟨e, he, rfl⟩
    rcases mem_of_mem_members he with ⟨hmem, habsorbed⟩
    exact ⟨⟨e, hmem, rfl⟩, habsorbed⟩
  · rintro ⟨⟨e, he, rfl⟩, habsorbed⟩
    exact exists_mem_members he habsorbed

/-- Unions in which the same texts stand have the same members, as texts. -/
theorem texts_members_congr (h : ∀ text, HasText types text ↔ HasText others text) :
    (members types).map (·.text) = (members others).map (·.text) := by
  have hsame : (⟨_, ascending_texts_members types⟩ : NameSet) =
      ⟨_, ascending_texts_members others⟩ :=
    NameSet.ext_mem fun text => mem_texts_members.trans ((h text).trans mem_texts_members.symm)
  exact congrArg NameSet.names hsame

end Texts

/-- The text of a union depends only on the texts that stand in it. -/
theorem text_union_congr {types others : List TypeExpr}
    (h : ∀ text, HasText types text ↔ HasText others text) :
    (union types).written.text = (union others).written.text := by
  have hmembers := texts_members_congr h
  rw [union_written, union_written]
  generalize members types = left at hmembers ⊢
  generalize members others = right at hmembers ⊢
  match left, right with
  | [], [] => rfl
  | [e], [f] => exact (List.cons.inj hmembers).1
  | e :: e' :: rest, f :: f' :: rest' => exact TypeExpr.text_apply_congr "Union" hmembers
  | [], _ :: _ => contradiction
  | _ :: _, [] => contradiction
  | [_], _ :: _ :: _ => exact absurd (List.cons.inj hmembers).2 (List.cons_ne_nil _ _).symm
  | _ :: _ :: _, [_] => exact absurd (List.cons.inj hmembers).2 (List.cons_ne_nil _ _)

end Spelling

namespace TypeTree

variable {s : Strategies} {t u c : TypeTree}

/-- No node of the tree gets a declaration of its own. -/
def IsInlined (s : Strategies) (t : TypeTree) : Prop :=
  ∀ u ∈ t.nodes, u.isAliased s = false

theorem IsInlined.child (h : IsInlined s t) (hc : c ∈ t.children) : IsInlined s c :=
  fun u hu => h u (mem_nodes_of_child hc hu)

theorem IsInlined.isAliased (h : IsInlined s t) : t.isAliased s = false :=
  h t (mem_nodes_self t)

theorem IsInlined.spellUse_eq (h : IsInlined s t) : t.spellUse s = t.spell s := by
  rw [spellUse, h.isAliased, if_neg Bool.false_ne_true]

theorem isScalarNamed_shape_iff (h : Coherent s t) (n : String) :
    Shape.isScalarNamed n t.shape = true ↔
      ∃ name v type, t = .scalar name v type ∧ type.rendered = n := by
  rcases h with
    ⟨name, v, type⟩ | @⟨_, _, form, _, _, _, _, _, _, _, rfl⟩ | @⟨_, _, kind, _, _, _, _, _, _, rfl⟩
  · rw [Shape.isScalarNamed, decide_eq_true_eq]
    constructor
    · exact fun heq => ⟨name, v, type, rfl, Form.scalar.inj heq⟩
    · rintro ⟨_, _, _, heq, hn⟩
      cases heq
      exact congrArg Form.scalar hn
  · refine iff_of_false ?_ (by rintro ⟨_, _, _, heq, _⟩; exact TypeTree.noConfusion heq)
    cases form <;> exact Bool.false_ne_true
  · refine iff_of_false ?_ (by rintro ⟨_, _, _, heq, _⟩; exact TypeTree.noConfusion heq)
    rw [shape, shapeOfElements_eq]
    cases kind <;> exact Bool.false_ne_true

/-- Only a scalar type is written without a bracket. -/
theorem text_spellUse_eq_iff (hcoherent : Coherent s t) (h : IsInlined s t) {n : String}
    (hn : '[' ∉ n.toList) :
    (t.spellUse s).written.text = n ↔ Shape.isScalarNamed n t.shape = true := by
  rw [isScalarNamed_shape_iff hcoherent, h.spellUse_eq]
  -- A scalar is spelled by its name, and everything else has a bracket in its text.
  by_cases hscalar : ∃ name v type, t = .scalar name v type
  · rcases hscalar with ⟨name, v, type, rfl⟩
    constructor
    · exact fun heq => ⟨name, v, type, rfl, heq⟩
    · rintro ⟨_, _, _, heq, hname⟩
      cases heq
      exact hname
  · simp only [not_exists] at hscalar
    have hrecord : t.isRecord = false := by
      by_contra hrecord
      have haliased : t.isAliased s = true := isAliased_of_isRecord (Bool.not_eq_false _ ▸ hrecord)
      rw [h.isAliased] at haliased
      contradiction
    rcases spell_eq_apply (s := s) hrecord hscalar with ⟨constructor, _, arguments, heq⟩
    refine iff_of_false (fun htext => hn ?_) fun ⟨name, v, type, hscalar', _⟩ =>
        hscalar name v type hscalar'
    rw [← htext, heq, TypeExpr.toList_text_apply]
    simp

section Unions

variable {cs ds : List TypeTree}

theorem exists_text_iff (hcs : ∀ c ∈ cs, Coherent s c ∧ IsInlined s c) {n : String}
    (hn : '[' ∉ n.toList) :
    (∃ e ∈ uses s cs, e.text = n) ↔ ∃ part ∈ cs.map shape, Shape.isScalarNamed n part = true := by
  simp only [mem_uses, List.mem_map]
  constructor
  · rintro ⟨_, ⟨c, hc, rfl⟩, htext⟩
    exact ⟨_, ⟨c, hc, rfl⟩, (text_spellUse_eq_iff (hcs c hc).1 (hcs c hc).2 hn).mp htext⟩
  · rintro ⟨_, ⟨c, hc, rfl⟩, hname⟩
    exact ⟨_, ⟨c, hc, rfl⟩, (text_spellUse_eq_iff (hcs c hc).1 (hcs c hc).2 hn).mpr hname⟩

/-- What stands in a union of children stands in a union of others that make up the same set
    of shapes, if children of one shape have one text. -/
theorem hasText_of_unorderedShapes_eq (hcs : ∀ c ∈ cs, Coherent s c ∧ IsInlined s c)
    (hds : ∀ d ∈ ds, Coherent s d ∧ IsInlined s d)
    (htext : ∀ c ∈ cs, ∀ d ∈ ds, d.shape = c.shape →
      (d.spellUse s).written.text = (c.spellUse s).written.text)
    (h : unorderedShapes cs = unorderedShapes ds) {text : String}
    (hc : Spelling.HasText (uses s cs) text) : Spelling.HasText (uses s ds) text := by
  have hbracket : '[' ∉ "int".toList ∧ '[' ∉ "float".toList := by decide
  have hdisjoint : ∀ part, Shape.isScalarNamed "float" part = true →
      Shape.isScalarNamed "int" part = false := by
    intro part hfloat
    rw [Shape.isScalarNamed, decide_eq_true_eq] at hfloat
    rw [Shape.isScalarNamed, hfloat]
    decide
  have hmem : ∀ part, part ∈ Shape.absorbIntegers (cs.map shape) ↔
      part ∈ Shape.absorbIntegers (ds.map shape) := Shape.canonical_eq_iff.mp h
  simp only [Shape.mem_absorbIntegers] at hmem
  rcases hc with ⟨⟨e, he, rfl⟩, habsorbed⟩
  rcases mem_uses.mp he with ⟨c, hc, rfl⟩
  -- The shape of the child is not taken in, so one of the others has it.
  have hkept := (hmem c.shape).mp ⟨List.mem_map_of_mem hc, fun hfloat => by
    have hne := habsorbed ((exists_text_iff hcs hbracket.2).mpr hfloat)
    rwa [Ne, text_spellUse_eq_iff (hcs c hc).1 (hcs c hc).2 hbracket.1, Bool.not_eq_true] at hne⟩
  rcases List.mem_map.mp hkept.1 with ⟨d, hd, hshape⟩
  refine ⟨⟨_, mem_uses.mpr ⟨d, hd, rfl⟩, htext c hc d hd hshape⟩, fun hfloat => habsorbed ?_⟩
  rcases (exists_text_iff hds hbracket.2).mp hfloat with ⟨part, hpart, hname⟩
  have hsame := (hmem part).mpr ⟨hpart, fun _ => hdisjoint part hname⟩
  exact (exists_text_iff hcs hbracket.2).mpr ⟨part, hsame.1, hname⟩

theorem text_union_eq_of_unorderedShapes_eq (hcs : ∀ c ∈ cs, Coherent s c ∧ IsInlined s c)
    (hds : ∀ d ∈ ds, Coherent s d ∧ IsInlined s d)
    (htext : ∀ c ∈ cs, ∀ d ∈ ds, d.shape = c.shape →
      (d.spellUse s).written.text = (c.spellUse s).written.text)
    (h : unorderedShapes cs = unorderedShapes ds) :
    (Spelling.union (uses s cs)).written.text = (Spelling.union (uses s ds)).written.text := by
  refine Spelling.text_union_congr fun text => ⟨hasText_of_unorderedShapes_eq hcs hds htext h, ?_⟩
  exact hasText_of_unorderedShapes_eq hds hcs (fun d hd c hc heq =>
    (htext c hc d hd heq.symm).symm) h.symm

/-- A union of names depends only on the set of the names. -/
theorem text_union_names_congr {names others : List String}
    (h : NameSet.ofList names = NameSet.ofList others) :
    (Spelling.union (names.map .name)).written.text =
      (Spelling.union (others.map .name)).written.text := by
  have hmem : ∀ n, n ∈ names ↔ n ∈ others := by
    intro n
    rw [← NameSet.mem_ofList, h, NameSet.mem_ofList]
  have htext : ∀ (names : List String) (n : String),
      (∃ e ∈ names.map TypeExpr.name, e.text = n) ↔ n ∈ names := by
    intro names n
    simp only [List.mem_map, exists_exists_and_eq_and, TypeExpr.text, exists_eq_right]
  refine Spelling.text_union_congr fun n => ?_
  rw [Spelling.HasText, Spelling.HasText, htext, htext, htext, htext, hmem, hmem]

end Unions

/-- The text of a generic mapping depends on the types of its keys and the union of its
    values. -/
theorem text_spellGeneric_congr {keys others : List String} {values otherValues : List TypeTree}
    (hkeys : NameSet.ofList others = NameSet.ofList keys)
    (hvalues : (Spelling.union (uses s otherValues)).written.text =
      (Spelling.union (uses s values)).written.text) :
    (spellGeneric s others (otherValues.map (spellUse s))).written.text =
      (spellGeneric s keys (values.map (spellUse s))).written.text := by
  refine TypeExpr.text_apply_congr _ ?_
  rw [List.map_cons, List.map_singleton, List.map_cons, List.map_singleton,
    text_union_names_congr hkeys]
  exact congrArg (fun text => [_, text]) hvalues

/-- The text of a sequence depends on its kind and on the texts of its elements. -/
theorem text_spellSequence_congr (kind : ElementKind) {elements others : List TypeTree}
    (hfixed : kind = .tuple .fixed → (uses s others).map (·.text) = (uses s elements).map (·.text))
    (hunion : kind ≠ .tuple .fixed → (Spelling.union (uses s others)).written.text =
      (Spelling.union (uses s elements)).written.text) :
    (spellSequence s kind (others.map (spellUse s))).written.text =
      (spellSequence s kind (elements.map (spellUse s))).written.text := by
  -- A tuple of fixed size lists its types, and no types are written in another way.
  by_cases h : kind = .tuple .fixed
  · rw [h, spellSequence_fixed, spellSequence_fixed]
    refine TypeExpr.text_apply_congr "Tuple" ?_
    have htexts := hfixed h
    unfold uses at htexts
    generalize (others.map (spellUse s)).map (·.written) = left at htexts ⊢
    generalize (elements.map (spellUse s)).map (·.written) = right at htexts ⊢
    match left, right with
    | [], [] => rfl
    | e :: rest, f :: rest' =>
      simp only [Spelling.listed, List.isEmpty_cons, Bool.false_eq_true, if_false, List.append_nil]
      exact htexts
    | [], _ :: _ => contradiction
    | _ :: _, [] => contradiction
  · rw [spellSequence_of_ne_fixed h, spellSequence_of_ne_fixed h]
    refine TypeExpr.text_apply_congr _ ?_
    rw [List.map_cons, List.map_cons]
    exact congrArg (· :: _) (hunion h)

/-- The text of a sequence depends on its kind and on the parts of its shape: one for each
    element in a tuple of fixed size, and those of a union otherwise. -/
theorem text_spellSequence_of_parts (kind : ElementKind) {elements others : List TypeTree}
    (huses : ∀ c ∈ elements, ∀ d ∈ others, d.shape = c.shape →
      (d.spellUse s).written.text = (c.spellUse s).written.text)
    (hunion : unorderedShapes elements = unorderedShapes others →
      (Spelling.union (uses s others)).written.text =
        (Spelling.union (uses s elements)).written.text)
    (hparts : (if kind = .tuple .fixed then others.map shape else unorderedShapes others) =
      if kind = .tuple .fixed then elements.map shape else unorderedShapes elements) :
    (spellSequence s kind (others.map (spellUse s))).written.text =
      (spellSequence s kind (elements.map (spellUse s))).written.text := by
  refine text_spellSequence_congr kind (fun hfixed => ?_) fun hne => ?_
  · rw [if_pos hfixed, if_pos hfixed] at hparts
    have hsame : List.Forall₂ (fun d c =>
        (c.spellUse s).written.text = (d.spellUse s).written.text) others elements :=
      forall₂_of_map_eq (List.forall₂_same.mpr fun c _ => rfl) hparts.symm
        fun c hc d hd heq b hb => hb ▸ (huses c hc d hd heq.symm).symm
    simp only [uses, List.map_map]
    exact (map_eq_of_forall₂ hsame).symm
  · rw [if_neg hne, if_neg hne] at hparts
    exact hunion hparts.symm

/-- Of trees in which nothing gets a declaration, the shape determines the text. -/
theorem text_spell_eq_of_shape_eq (ht : Coherent s t) (hu : Coherent s u) (hit : IsInlined s t)
    (hiu : IsInlined s u) (h : u.shape = t.shape) :
    (u.spell s).written.text = (t.spell s).written.text := by
  induction t using induct_children generalizing u with
  | node t ih =>
    -- Without declarations, a child is used by writing it where it stands.
    have huses : ∀ c ∈ t.children, ∀ d ∈ u.children, d.shape = c.shape →
        (d.spellUse s).written.text = (c.spellUse s).written.text := by
      intro c hc d hd heq
      rw [(hit.child hc).spellUse_eq, (hiu.child hd).spellUse_eq]
      exact ih c hc (ht.child hc) (hu.child hd) (hit.child hc) (hiu.child hd) heq
    -- A union forgets the order of the children, and so does the shape.
    have hunion : unorderedShapes t.children = unorderedShapes u.children →
        (Spelling.union (uses s u.children)).written.text =
          (Spelling.union (uses s t.children)).written.text :=
      fun hparts => (text_union_eq_of_unorderedShapes_eq
        (fun c hc => ⟨ht.child hc, hit.child hc⟩) (fun d hd => ⟨hu.child hd, hiu.child hd⟩)
        huses hparts).symm
    cases hu.isMadeLike ht h with
    | scalar rendered_eq => exact rendered_eq
    -- A record would have a declaration.
    | record => exact absurd hit.isAliased Bool.noConfusion
    | @generic _ _ _ _ _ _ _ _ others fields shape_eq =>
      rcases Shape.node.inj shape_eq with ⟨hform, hparts⟩
      have hkeys : NameSet.ofList (others.map (·.1.typeName)) =
          NameSet.ofList (fields.map (·.1.typeName)) :=
        NameSet.ext_mem fun n =>
          iff_of_eq (congrArg (fun names : List String => n ∈ names) (Form.mapping.inj hform))
      rw [spell, spell, spellFieldUses_eq_map, spellFieldUses_eq_map]
      exact text_spellGeneric_congr hkeys (hunion hparts.symm)
    | @sequence _ _ _ _ kind _ _ _ _ others elements shape_eq =>
      rw [shapeOfElements_eq, shapeOfElements_eq] at shape_eq
      rw [spell, spell, spellElementUses_eq_map, spellElementUses_eq_map]
      exact text_spellSequence_of_parts kind huses hunion (Shape.node.inj shape_eq).2

end TypeTree

end TypeSketch
