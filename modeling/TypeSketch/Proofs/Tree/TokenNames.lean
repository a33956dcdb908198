import TypeSketch.Proofs.Names.Renaming
import TypeSketch.Proofs.Names.Tokens

/-!
# Ways That Names Spell

If every step down a tree appends one token, the name of a node spells the way to it:
tokens can be read off a name one by one, so nodes of one name are reached over nodes of
one name. They are two nodes only if somewhere on the way there are two siblings of one
name. So names stand for one digest if they do below such siblings.

Only the ways to nodes with a declaration have to be spelled, for no other names are ever
declared. Siblings that get a declaration themselves are numbered, so those of one name
have one digest. Siblings that get none can share a name although they differ.

## Main definitions

* `TypeTree.HasTokenNames`: Trees in which each step appends a token.
* `TypeTree.AgreeBelow`: What is declared below two nodes agrees.
* `TypeTree.AreApart`: Siblings with a declaration are told apart.

## Theorems

* `TypeTree.areApart_disambiguate`: Numbers tell siblings apart.
* `TypeTree.AreApart.map_followRename`: A renamed parent leaves its children apart.
* `TypeTree.HasTokenNames.name_eq_of_mem_nodes`: Nodes of one name are below children of one
  name.
* `TypeTree.HasTokenNames.digest_eq_of_name_eq`: Nodes of one name have one digest where siblings
  agree.
-/

namespace TypeSketch

namespace TypeTree

open Naming

/-- A child with a declaration below it is called what its parent is called, with a token
    behind. -/
def HasTokenNames (s : Strategies) (t : TypeTree) : Prop :=
  ∀ p ∈ t.nodes, ∀ c ∈ p.children, HasAlias s c → ∃ token, IsToken token ∧ c.name = p.name ++ token

/-- What gets a declaration below two nodes has one digest for each name. -/
def AgreeBelow (s : Strategies) (c c' : TypeTree) : Prop :=
  ∀ u ∈ c.nodes, ∀ u' ∈ c'.nodes, u.isAliased s = true → u'.isAliased s = true →
    u.name = u'.name → u.digest = u'.digest

variable {s : Strategies} {t c d u w : TypeTree}

theorem AgreeBelow.symm (h : AgreeBelow s c d) : AgreeBelow s d c :=
  fun u hu u' hu' hua hua' hname => (h u' hu' u hu hua' hua hname.symm).symm

namespace HasTokenNames

theorem child (h : HasTokenNames s t) (hc : c ∈ t.children) : HasTokenNames s c :=
  fun p hp => h p (mem_nodes_of_child hc hp)

/-- The name of a node with a declaration is that of a node above it with tokens behind. -/
theorem exists_suffix (h : HasTokenNames s t) (hu : u ∈ t.nodes) (haliased : u.isAliased s = true) :
    ∃ suffix, StartsToken suffix ∧ u.name = t.name ++ suffix := by
  induction t using induct_children with
  | node t ih =>
    rcases mem_nodes.mp hu with rfl | hu
    · exact ⟨"", startsToken_empty, String.append_empty.symm⟩
    · rcases mem_descendants.mp hu with ⟨c, hc, hu⟩
      rcases ih c hc (h.child hc) hu with ⟨suffix, _, hname⟩
      rcases h t (mem_nodes_self t) c hc ⟨u, hu, haliased⟩ with ⟨token, htoken, hchild⟩
      refine ⟨token ++ suffix, htoken.startsToken suffix, ?_⟩
      rw [hname, hchild, String.append_assoc]

/-- The way to a node with a declaration begins with the token of a child. -/
theorem exists_way (h : HasTokenNames s t) (hc : c ∈ t.children) (hu : u ∈ c.nodes)
    (haliased : u.isAliased s = true) : ∃ token suffix, IsToken token ∧ StartsToken suffix ∧
      c.name = t.name ++ token ∧ u.name = t.name ++ (token ++ suffix) := by
  rcases (h.child hc).exists_suffix hu haliased with ⟨suffix, hsuffix, hname⟩
  rcases h t (mem_nodes_self t) c hc ⟨u, hu, haliased⟩ with ⟨token, htoken, hchild⟩
  refine ⟨token, suffix, htoken, hsuffix, hchild, ?_⟩
  rw [hname, hchild, String.append_assoc]

theorem name_ne (h : HasTokenNames s t) (hu : u ∈ t.descendants) (haliased : u.isAliased s = true) :
    u.name ≠ t.name := by
  rcases mem_descendants.mp hu with ⟨c, hc, hu⟩
  rcases h.exists_way hc hu haliased with ⟨token, suffix, ⟨first, rest, hchars, _⟩, _, _, hname⟩
  intro heq
  have hlength := congrArg (fun s : String => s.toList.length) (hname.symm.trans heq)
  simp only [String.toList_append, List.length_append, hchars, List.length_cons] at hlength
  omega

/-- Nodes of one name are below children of one name. -/
theorem name_eq_of_mem_nodes (h : HasTokenNames s t) (hc : c ∈ t.children) (hd : d ∈ t.children)
    (hu : u ∈ c.nodes) (hw : w ∈ d.nodes) (hua : u.isAliased s = true) (hwa : w.isAliased s = true)
    (hname : u.name = w.name) : c.name = d.name := by
  rcases h.exists_way hc hu hua with ⟨token, suffix, htoken, hsuffix, hchild, huname⟩
  rcases h.exists_way hd hw hwa with ⟨token', suffix', htoken', hsuffix', hchild', hwname⟩
  rw [huname, hwname, String.append_right_inj] at hname
  rw [hchild, hchild', (htoken.append_inj htoken' hsuffix hsuffix' hname).1]

/-- Nodes of one name have one digest, if what is below two siblings of one name agrees. -/
theorem digest_eq_of_name_eq (h : HasTokenNames s t)
    (hagree : ∀ p ∈ t.nodes, ∀ c ∈ p.children, ∀ d ∈ p.children, c ≠ d → c.name = d.name →
      HasAlias s c → HasAlias s d → AgreeBelow s c d)
    (hu : u ∈ t.nodes) (hw : w ∈ t.nodes) (hua : u.isAliased s = true) (hwa : w.isAliased s = true)
    (hname : u.name = w.name) : u.digest = w.digest := by
  induction t using induct_children with
  | node t ih =>
    rcases mem_nodes.mp hu with rfl | hu
    · rcases mem_nodes.mp hw with rfl | hw
      · rfl
      · exact absurd hname.symm (h.name_ne hw hwa)
    · rcases mem_nodes.mp hw with rfl | hw
      · exact absurd hname (h.name_ne hu hua)
      · rcases mem_descendants.mp hu with ⟨c, hc, hu⟩
        rcases mem_descendants.mp hw with ⟨d, hd, hw⟩
        have hsame := h.name_eq_of_mem_nodes hc hd hu hw hua hwa hname
        -- The two ways go on together, or they part at siblings of one name.
        by_cases hone : c = d
        · rw [← hone] at hw
          exact ih c hc (h.child hc) (fun p hp => hagree p (mem_nodes_of_child hc hp)) hu hw
        · exact hagree t (mem_nodes_self t) c hc d hd hone hsame ⟨u, hu, hua⟩ ⟨w, hw, hwa⟩
            u hu w hw hua hwa hname

end HasTokenNames

/-- Siblings of one name that get a declaration have one digest. -/
def AreApart (s : Strategies) (elements : List TypeTree) : Prop :=
  ∀ e ∈ elements, ∀ e' ∈ elements, e.isAliased s = true → e'.isAliased s = true →
    e.name = e'.name → e.digest = e'.digest

section Siblings

variable {parent : String} {trees elements : List TypeTree} {e : TypeTree}

/-- An element gets a number if it gets a declaration, and stays as it is if not. -/
theorem exists_withOrdinal_eq (h : e ∈ disambiguate s trees) :
    ∃ t ∈ trees, ∃ i, e = t.withOrdinal i ∧ (t.isAliased s = false → i = 0) := by
  rcases exists_ledger s trees with ⟨table, _, hnumbered⟩
  rcases exists_mem_left_of_forall₂ hnumbered h with ⟨t, ht, rfl⟩
  refine ⟨t, ht, ?_⟩
  by_cases haliased : t.isAliased s = true
  · exact ⟨_, if_pos haliased, fun hnot => absurd haliased (by rw [hnot]; exact Bool.false_ne_true)⟩
  · exact ⟨0, if_neg haliased, fun _ => rfl⟩

/-- Elements that are named by words are told apart by their numbers. -/
theorem areApart_disambiguate (h : ∀ t ∈ trees, t.isAliased s = true →
      ∃ word, IsStem word ∧ t.name = parent ++ word) : AreApart s (disambiguate s trees) := by
  rcases exists_ledger s trees with ⟨table, hledger, hnumbered⟩
  intro e he e' he' ha ha' hname
  rcases exists_mem_left_of_forall₂ hnumbered he with ⟨t, ht, rfl⟩
  rcases exists_mem_left_of_forall₂ hnumbered he' with ⟨t', ht', rfl⟩
  -- A number does not change whether a node gets a declaration.
  have hbefore : ∀ {t : TypeTree} {i : Nat},
      (if t.isAliased s then t.withOrdinal i else t).isAliased s = true → t.isAliased s = true := by
    intro t i haliased
    split at haliased
    · next h => exact h
    · exact haliased
  have haliased := hbefore ha
  have haliased' := hbefore ha'
  rw [if_pos haliased, if_pos haliased'] at hname ⊢
  rcases h t ht haliased with ⟨word, hword, hold⟩
  rcases h t' ht' haliased' with ⟨word', hword', hold'⟩
  rw [name_withOrdinal, name_withOrdinal, hold, hold', ordinalName_append, ordinalName_append,
    String.append_right_inj] at hname
  rcases hword.ordinalName_inj hword' hname with ⟨hwords, hplaces⟩
  -- Both are numbered under one name, and its table has the two digests at one place.
  have hmem : t.digest ∈ table (parent ++ word) :=
    (hledger.mem_iff _ _).mpr ⟨t, ht, haliased, hold, rfl⟩
  rw [← hwords] at hplaces
  rw [digest_withOrdinal, digest_withOrdinal]
  exact (List.idxOf_inj hmem).mp hplaces

theorem map_digest_followRename (oldName newName : String) (elements : List TypeTree) :
    (elements.map (followRename oldName newName)).map digest = elements.map digest := by
  rw [List.map_map]
  exact List.map_congr_left fun e _ => digest_followRename oldName newName e

/-- Children whose names start with that of their parent are renamed with it, so those of one
    name had one name before. -/
theorem AreApart.map_followRename {oldName : String} (h : AreApart s elements) (newName : String)
    (hnames : ∀ e ∈ elements, e.isAliased s = true → ∃ suffix, e.name = oldName ++ suffix) :
    AreApart s (elements.map (followRename oldName newName)) := by
  refine List.forall_mem_map.mpr fun e he => List.forall_mem_map.mpr fun e' he' ha ha' heq => ?_
  rw [isAliased_followRename] at ha ha'
  rcases hnames e he ha with ⟨suffix, hold⟩
  rcases hnames e' he' ha' with ⟨suffix', hold'⟩
  rw [followRename_of_name_eq hold, followRename_of_name_eq hold', name_rename, name_rename,
    String.append_right_inj] at heq
  rw [digest_followRename, digest_followRename]
  exact h e he e' he' ha ha' (by rw [hold, hold', heq])

end Siblings

end TypeTree

end TypeSketch
