import TypeSketch.Proofs.Names.Renaming
import TypeSketch.Proofs.Tree.Coherence
import TypeSketch.Proofs.Tree.TokenNames

/-!
# Trees of Sequences

Without mappings a tree is made in layers of sequences, and the names in it can be traced
back. A sequence is named by tokens, one for each layer, so if two nodes have one name,
the ways to them lead over nodes of one name. Siblings of one name have one digest, because
that is what numbers are for; and if the order of siblings does not matter, there is only
one of each digest, so the two ways are one. Only in a tuple of fixed size they can part.

What is below two elements of such a tuple need not agree. The two have one digest, but
where the order of their own elements does not matter, the digest does not tell it, and
numbers go by order.

## Main definitions

* `TypeTree.IsLayered`: Trees of sequences with such names.
* `Value.IsSequential`: Values without mappings, of registered kinds.
* `TypeTree.PositionsAgree`: What is below elements of tuples agrees.

## Theorems

* `TypeTree.IsLayered.rename`, `TypeTree.isLayered_arrange`: What keeps trees layered.
* `TypeTree.IsLayered.digest_eq_of_name_eq`: Nodes of one name have one digest where positions
  agree.
* `Inference.isLayered_of_node`: Inferred trees of sequences are layered.
-/

namespace TypeSketch

/-- No part of the value is a mapping, and the kinds of all atoms are registered. -/
inductive Value.IsSequential (r : Registry) : Value → Prop
  | atom {a : Atom} (registered : ∃ type, r.get? (.atom a.kind) = some (.scalar type)) :
    IsSequential r (.atom a)
  | sequence {kind : SequenceKind} {items : List Value}
    (items_sequential : ∀ item ∈ items, IsSequential r item) : IsSequential r (.sequence kind items)

namespace TypeTree

open Naming

def isSequence : TypeTree → Bool
  | sequence .. => true
  | _ => false

/-- The node is a tuple of fixed size. -/
def isFixedTuple : TypeTree → Bool
  | sequence _ _ (.tuple .fixed) .. => true
  | _ => false

/-- Sequences are named by tokens, siblings of one name have one digest, and there is one
    sibling of each digest where order does not matter. -/
inductive IsLayered (s : Strategies) : TypeTree → Prop
  | scalar (name : String) (v : Value) (type : ScalarType) : IsLayered s (.scalar name v type)
  | sequence {name : String} {v : Value} {kind : ElementKind} {height : Nat} {shape : Shape}
    {elements : List TypeTree} (children : ∀ e ∈ elements, IsLayered s e)
    (named : ∀ e ∈ elements, e.isSequence = true → ∃ token, IsToken token ∧ e.name = name ++ token)
    (apart : ∀ e ∈ elements, ∀ e' ∈ elements, e.isAliased s = true → e'.isAliased s = true →
      e.name = e'.name → e.digest = e'.digest)
    (distinct : kind ≠ .tuple .fixed → (elements.map TypeTree.digest).Nodup) :
    IsLayered s (.sequence name v kind height shape elements)

/-- What gets a declaration below elements of one name in a tuple of fixed size has one
    digest for each name. -/
def PositionsAgree (s : Strategies) (t : TypeTree) : Prop :=
  ∀ p ∈ t.nodes, p.isFixedTuple = true → ∀ c ∈ p.children, ∀ c' ∈ p.children, c.name = c'.name →
    ∀ u ∈ c.nodes, ∀ u' ∈ c'.nodes, u.isAliased s = true → u'.isAliased s = true →
      u.name = u'.name → u.digest = u'.digest

variable {s : Strategies} {t c u w : TypeTree}

section Access

theorem IsLayered.child (hc : c ∈ t.children) (h : IsLayered s t) : IsLayered s c := by
  cases h with
  | scalar name v type => exact absurd hc List.not_mem_nil
  | sequence children _ _ _ => exact children c hc

theorem IsLayered.isSequence_of_isAliased (h : IsLayered s t) (haliased : t.isAliased s = true) :
    t.isSequence = true := by
  cases h with
  | scalar name v type => exact absurd haliased Bool.false_ne_true
  | sequence _ _ _ _ => rfl

theorem IsLayered.exists_token (h : IsLayered s t) (hc : c ∈ t.children)
    (hsequence : c.isSequence = true) :
    ∃ token, IsToken token ∧ c.name = t.name ++ token := by
  cases h with
  | scalar name v type => exact absurd hc List.not_mem_nil
  | sequence _ named _ _ => exact named c hc hsequence

theorem IsLayered.isSequence_of_hasAlias (h : IsLayered s t) (halias : HasAlias s t) :
    t.isSequence = true := by
  cases h with
  | scalar name v type =>
    rcases halias with ⟨u, hu, haliased⟩
    rw [List.mem_singleton.mp hu] at haliased
    exact absurd haliased Bool.false_ne_true
  | sequence _ _ _ _ => rfl

/-- Only below sequences there is something with a declaration, so each step there appends a
    token. -/
theorem IsLayered.hasTokenNames (h : IsLayered s t) : HasTokenNames s t := by
  intro p hp c hc halias
  have hlayered : IsLayered s p := forall_mem_nodes (fun _ _ hc ht => ht.child hc) h p hp
  exact hlayered.exists_token hc ((hlayered.child hc).isSequence_of_hasAlias halias)

/-- Above a sequence with a declaration all sequences have one. -/
theorem IsLayered.isAliased_of_mem_nodes (h : IsLayered s t) (hcoherent : Coherent s t)
    (hu : u ∈ t.nodes)
    (haliased : u.isAliased s = true) : t.isAliased s = true := by
  have hsequence := h.isSequence_of_hasAlias ⟨u, hu, haliased⟩
  have hheight := hcoherent.height_le_of_mem_nodes hu
  have hlow : s.aliasHeight ≤ u.height := by
    cases hnode : u with
    | scalar name v type =>
      rw [hnode] at haliased
      exact absurd haliased Bool.false_ne_true
    | mapping name v form height shape fields =>
      have hlayered := forall_mem_nodes (fun _ _ hc ht => ht.child hc) h u hu
      rw [hnode] at hlayered
      nomatch hlayered
    | sequence name v kind height shape elements =>
      rw [hnode] at haliased
      exact decide_eq_true_eq.mp haliased
  -- What is as high as a node that is declared is declared too, if it is a sequence.
  cases t with
  | scalar name v type => contradiction
  | mapping name v form height shape fields => contradiction
  | sequence name v kind height shape elements =>
    exact decide_eq_true_eq.mpr (Nat.le_trans hlow hheight)

end Access

section Agreement

/-- Where the order of siblings does not matter, there is only one of each name that has a
    declaration below it. -/
theorem IsLayered.eq_of_name_eq {d : TypeTree} (h : IsLayered s t) (hcoherent : Coherent s t)
    (hfixed : t.isFixedTuple = false) (hc : c ∈ t.children) (hd : d ∈ t.children)
    (hsame : c.name = d.name) (hca : HasAlias s c) (hda : HasAlias s d) : c = d := by
  have haliased : ∀ {e : TypeTree}, e ∈ t.children → HasAlias s e → e.isAliased s = true := by
    rintro e he ⟨u, hu, haliased⟩
    exact (h.child he).isAliased_of_mem_nodes (hcoherent.child he) hu haliased
  have hca := haliased hc hca
  have hda := haliased hd hda
  cases h with
  | scalar name v type => exact absurd hc List.not_mem_nil
  | @sequence _ _ kind _ _ _ _ _ apart distinct =>
    have hkind : kind ≠ .tuple .fixed := by
      rintro rfl
      exact Bool.false_ne_true hfixed.symm
    exact List.inj_on_of_nodup_map (distinct hkind) hc hd (apart c hc d hd hca hda hsame)

/-- Nodes of one name have one digest if positions agree. -/
theorem IsLayered.digest_eq_of_name_eq (h : IsLayered s t) (hcoherent : Coherent s t)
    (hagree : PositionsAgree s t) (hu : u ∈ t.nodes) (hw : w ∈ t.nodes) (hua : u.isAliased s = true)
    (hwa : w.isAliased s = true) (hname : u.name = w.name) : u.digest = w.digest := by
  refine h.hasTokenNames.digest_eq_of_name_eq (fun p hp c hc d hd hne hsame hca hda => ?_)
    hu hw hua hwa hname
  have hlayered : IsLayered s p := forall_mem_nodes (fun _ _ hc ht => ht.child hc) h p hp
  -- The two ways can part only at a tuple of fixed size.
  cases hfixed : p.isFixedTuple with
  | true => exact hagree p hp hfixed c hc d hd hsame
  | false =>
    exact absurd (hlayered.eq_of_name_eq (hcoherent.of_mem_nodes hp) hfixed hc hd hsame hca hda) hne

end Agreement

section Renaming

theorem isSequence_rename (newName : String) (t : TypeTree) :
    (t.rename newName).isSequence = t.isSequence := by
  cases t <;> rfl

theorem isSequence_followRename (oldName newName : String) (t : TypeTree) :
    (followRename oldName newName t).isSequence = t.isSequence := by
  rcases followRename_cases oldName newName t with heq | ⟨suffix, _, heq⟩
  · rw [heq]
  · rw [heq, isSequence_rename]

theorem IsLayered.rename (h : IsLayered s t) (newName : String) :
    IsLayered s (t.rename newName) := by
  induction h generalizing newName with
  | scalar name v type => exact IsLayered.scalar newName v type
  | @sequence name v kind height shape elements children named apart distinct ih =>
    rw [TypeTree.rename, renameElements_eq_map]
    refine IsLayered.sequence (List.forall_mem_map.mpr fun e he => ?_)
      (List.forall_mem_map.mpr fun e he hs => ?_) (AreApart.map_followRename apart _ ?_)
      fun hkind => ?_
    -- A child is renamed along with its parent, or it is not called after it.
    · rcases followRename_cases name newName e with heq | ⟨suffix, _, heq⟩ <;> rw [heq]
      · exact children e he
      · exact ih e he _
    · rw [isSequence_followRename] at hs
      rcases named e he hs with ⟨token, htoken, hold⟩
      exact ⟨token, htoken, by rw [followRename_of_name_eq hold, name_rename]⟩
    · -- Only sequences get a declaration, so what is told apart is named by tokens.
      intro e he haliased
      rcases named e he ((children e he).isSequence_of_isAliased haliased) with ⟨token, _, hold⟩
      exact ⟨token, hold⟩
    · rw [map_digest_followRename]
      exact distinct hkind

end Renaming

section Arranging

variable {kind : ElementKind} {parent : String} {trees : List TypeTree}

theorem IsLayered.merge?_eq_none (h : IsLayered s t) (similarity : Nat) (u : TypeTree) :
    t.merge? similarity u = none := by
  cases h with
  | scalar name v type => rfl
  | sequence _ _ _ _ => rfl

theorem isSequence_withOrdinal (t : TypeTree) (i : Nat) :
    (t.withOrdinal i).isSequence = t.isSequence := by
  unfold TypeTree.withOrdinal
  split
  · rfl
  · rw [isSequence_rename]

theorem IsLayered.withOrdinal (h : IsLayered s t) (i : Nat) : IsLayered s (t.withOrdinal i) := by
  unfold TypeTree.withOrdinal
  split
  · exact h
  · exact h.rename _

/-- Of trees that cannot be merged one of each digest is numbered, or every one in a tuple of
    fixed size. -/
theorem exists_arrange_eq (h : ∀ t ∈ trees, IsLayered s t) :
    ∃ kept : List TypeTree, arrange s kind trees = disambiguate s kept ∧ (∀ t ∈ kept, t ∈ trees) ∧
      (kind ≠ .tuple .fixed → (kept.map digest).Nodup) := by
  by_cases hkind : kind = .tuple .fixed
  · exact ⟨trees, by rw [hkind]; rfl, fun _ ht => ht, fun hne => absurd hkind hne⟩
  · refine ⟨dropRepeated trees, ?_, fun _ ht => mem_of_mem_dropSeen ht,
      fun _ => nodup_dropRepeated trees⟩
    have hmerge : mergeSimilar s.similarity (dropRepeated trees) = dropRepeated trees :=
      mergeSimilar_eq_self (nodup_dropRepeated trees) fun t ht u _ _ =>
        (h t (mem_of_mem_dropSeen ht)).merge?_eq_none s.similarity u
    rw [arrange_of_ne_fixed hkind, hmerge]

/-- The sequence of arranged trees is layered, if the trees are and if those of them that
    are sequences are named by the words for their kinds. -/
theorem isLayered_arrange (h : ∀ t ∈ trees, IsLayered s t ∧
      (t.isSequence = true → ∃ k : SequenceKind, t.name = parent ++ k.word)) (v : Value) :
    IsLayered s (ofElements parent v kind (arrange s kind trees)) := by
  rcases @exists_arrange_eq _ kind _ fun t ht => (h t ht).1 with ⟨kept, harrange, hkept, hnodup⟩
  have hword : ∀ t ∈ kept, t.isSequence = true → ∃ k : SequenceKind, t.name = parent ++ k.word :=
    fun t ht => (h t (hkept t ht)).2
  rw [harrange]
  refine IsLayered.sequence (fun e he => ?_) (fun e he hs => ?_)
    (@areApart_disambiguate s parent kept fun t ht haliased => ?_) fun hkind => ?_
  -- Each element is one of those that were kept, with a number behind its name or without.
  · rcases exists_withOrdinal_eq he with ⟨t, ht, i, rfl, _⟩
    exact (h t (hkept t ht)).1.withOrdinal i
  · rcases exists_withOrdinal_eq he with ⟨t, ht, i, rfl, _⟩
    rw [isSequence_withOrdinal] at hs
    rcases hword t ht hs with ⟨k, hk⟩
    exact ⟨_, k.isStem_word.isToken_ordinalName i, by rw [name_withOrdinal, hk, ordinalName_append]⟩
  · rcases hword t ht ((h t (hkept t ht)).1.isSequence_of_isAliased haliased) with ⟨k, hk⟩
    exact ⟨k.word, k.isStem_word, hk⟩
  · rw [map_digest_disambiguate]
    exact hnodup hkind

end Arranging

end TypeTree

namespace Inference

open TypeTree

/-- Inferred trees of sequences are layered. -/
theorem isLayered_of_node {run : Inference} {name : String} {v : Value} {t : TypeTree}
    (hv : v.IsSequential run.registry) (h : run.node name v = .ok t) :
    IsLayered run.strategies t := by
  refine node_induct (P := fun _ v t => v.IsSequential run.registry → IsLayered run.strategies t)
    ?_ ?_ ?_ v name t h hv
  · exact fun name v type _ _ => IsLayered.scalar name v type
  · intro name kind items rule elementKind trees _ _ hchildren hlayered hv
    rcases hv with _ | ⟨hitems⟩
    refine isLayered_arrange (fun t ht => ?_) _
    have hboth := hchildren.mp (fun _ _ h h' => And.intro h h') hlayered
    have hall := (List.forall₂_and_left _ _).mpr ⟨hitems, hboth⟩
    rcases exists_mem_left_of_forall₂ hall ht with ⟨item, _, hitem, hchild, htree⟩
    refine ⟨htree hitem, fun hsequence => ?_⟩
    -- A node that is a sequence has been made of an item that is one.
    have hnode := (child_eq_ok_iff.mp hchild).1
    rw [name_of_node hnode]
    rcases isNode_of_node hnode with _ | @⟨kind', items', _, _, _, _, _, _⟩ | _
    · contradiction
    · exact ⟨kind', SequenceKind.childName_sequence name kind' items'⟩
    · contradiction
  · exact fun name entries children _ _ _ hv => nomatch hv

end Inference

end TypeSketch
