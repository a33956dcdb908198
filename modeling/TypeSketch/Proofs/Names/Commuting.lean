import TypeSketch.Proofs.Names.ChildNames
import TypeSketch.Proofs.Tree.Agreement
import TypeSketch.Proofs.Tree.Corresponding
import TypeSketch.Proofs.Tree.Mapped

/-!
# Inference Under Another Name

Inference under one identifier and renaming to another one is inference under the other one.
So a tree that is there already can be declared under any name, and nothing about its type
hangs on the name that it was inferred under.

Renaming goes by what the names start with, so it relies on every name being the name of the
parent with a suffix, also where a record took over fields of another one or an element got
a number. The two runs correspond node by node: a node of the second is that of the first
with the other name of the root at the start of its own. No pass over siblings can tell,
because both roots are exchanged for one another in all names at once.

## Main definitions

* `TypeTree.FollowsTo`: A node below a root of one name, and below a root of another one.

## Theorems

* `TypeTree.merge?_followRename`: Merging commutes with renaming.
* `Inference.infer_rename`: Inference commutes with renaming.
-/

namespace TypeSketch

namespace TypeTree

open Naming

variable {s : Strategies} {n m : String} {t u a b : TypeTree}

/-- A well named tree below a node of the one name, and the same tree after that node has been
    given the other. -/
structure FollowsTo (s : Strategies) (n m : String) (t u : TypeTree) : Prop where
  wellNamed : WellNamed s t
  extends_name : Extends n t.name
  eq_followRename : u = followRename n m t

theorem FollowsTo.exists_suffix (h : FollowsTo s n m t u) :
    ∃ suffix, t.name = n ++ suffix ∧ u = t.rename (m ++ suffix) := by
  rcases h.extends_name with ⟨suffix, _, hname⟩
  exact ⟨suffix, hname, by rw [h.eq_followRename, followRename_of_name_eq hname]⟩

theorem name_of_isMerge {similarity : Nat} {c : TypeTree} (h : IsMerge similarity a b c) :
    c.name = a.name := by
  cases h
  rfl

/-- The merge of two records after both have followed a node above them. -/
theorem merge?_followRename (hb : WellNamed s b) (ha_name : Extends n a.name)
    (hb_name : Extends n b.name) (similarity : Nat) :
    (followRename n m a).merge? similarity (followRename n m b) =
      (a.merge? similarity b).map (followRename n m) := by
  rcases ha_name with ⟨ours, _, ha_name⟩
  rcases hb_name with ⟨theirs, _, hb_name⟩
  -- Only two records can be merged, and then both are renamed as wholes, fields included.
  by_cases hrecords : a.isRecord = true ∧ b.isRecord = true
  · rcases exists_eq_of_isRecord hrecords.1 with ⟨name, v, _, height, shape, left, rfl⟩
    rcases exists_eq_of_isRecord hrecords.2 with ⟨theirName, w, _, _, _, right, rfl⟩
    change name = n ++ ours at ha_name
    change theirName = n ++ theirs at hb_name
    subst ha_name hb_name
    rw [followRename_of_name_eq rfl, followRename_of_name_eq rfl, rename, rename,
      renameFields_eq_map, renameFields_eq_map]
    refine merge?_map (fun form height shape fields => ?_) (shape_followRename _ _)
      (shape_followRename _ _) fun f hf => ?_
    · rw [followRename_of_name_eq rfl, rename, renameFields_eq_map]
    -- A field that is taken over gets the name of the first record, and it makes no difference
    -- whether that is done before or after renaming.
    · have hextends : Extends (n ++ theirs) f.2.name := hb.extends_child (List.mem_map_of_mem hf)
      have hrename : ∀ x y, (f.2.rename x).rename y = f.2.rename y :=
        (hb.child (List.mem_map_of_mem hf)).rename_rename
      rw [adopt_eq_followRename, adopt_eq_followRename, followRename_followRename hextends hrename,
        followRename_followRename hextends hrename]
  · rw [merge?_eq_none_of_isRecord hrecords, Option.map_none, followRename_of_name_eq ha_name,
      followRename_of_name_eq hb_name]
    refine merge?_eq_none_of_isRecord ?_
    rwa [isRecord_rename, isRecord_rename]

/-- No pass over siblings can tell the names of the node above them. -/
theorem isCorrespondence_followsTo (s : Strategies) (n m : String) :
    IsCorrespondence s (fun name name' => ∃ suffix, name = n ++ suffix ∧ name' = m ++ suffix)
      (FollowsTo s n m) where
  digest_eq t u h := by rw [h.eq_followRename, digest_followRename]
  isAliased_eq t u h := by rw [h.eq_followRename, isAliased_followRename]
  sameName t u h := by
    rcases h.exists_suffix with ⟨suffix, hname, hu⟩
    exact ⟨suffix, hname, by rw [hu, name_rename]⟩
  name_eq_iff := by
    rintro _ _ _ _ ⟨suffix, rfl, rfl⟩ ⟨suffix', rfl, rfl⟩
    rw [String.append_right_inj, String.append_right_inj]
  merge? a a' b b' ha hb := by
    rw [ha.eq_followRename, hb.eq_followRename,
      merge?_followRename hb.wellNamed ha.extends_name hb.extends_name]
    -- A merge has the name of the first record, so its counterpart follows from that of the first.
    cases hmerge : a.merge? s.similarity b with
    | none => exact Option.Rel.none
    | some c =>
      have hc := merge?_eq_some_iff.mp hmerge
      refine Option.Rel.some ⟨hc.wellNamed ha.wellNamed hb.wellNamed, ?_, rfl⟩
      rw [name_of_isMerge hc]
      exact ha.extends_name
  -- A number comes behind the name, so the new names have one suffix again.
  number t u i h haliased := by
    rcases h.exists_suffix with ⟨suffix, hname, hu⟩
    have hplain : IsPlain (t.name ++ toString (i + 1)) :=
      isPlain_append.mpr ⟨h.wellNamed.isPlain haliased, isPlain_toString _⟩
    have hnumbered : (t.rename (t.name ++ toString (i + 1))).name =
        n ++ (suffix ++ toString (i + 1)) := by
      rw [name_rename, hname, String.append_assoc]
    refine ⟨h.wellNamed.rename fun _ => hplain, ?_, ?_⟩
    · rw [name_rename]
      exact h.extends_name.append _
    · rw [followRename_of_name_eq hnumbered, hu, name_rename, h.wellNamed.rename_rename,
        h.wellNamed.rename_rename, String.append_assoc]

end TypeTree

namespace Inference

open TypeTree Naming

variable {run : Inference} {first second : String}

/-- A child follows the node if it takes the name of its place in the other tree. -/
theorem agrees_child_rename {key : ChildKey} {w : Value} (hfirst : isIdentifier first = true)
    (hsecond : isIdentifier second = true)
    (h : Agrees Eq (fun t u => u = t.rename (childName second key))
      (run.node (childName first key) w) (run.node (childName second key) w)) :
    Agrees Eq (FollowsTo run.strategies first second) (run.child first key w)
      (run.child second key w) := by
  rw [child_eq_node hfirst, child_eq_node hsecond]
  refine h.imp fun t u ht _ htu => ?_
  have hname := name_of_node ht
  refine ⟨wellNamed_of_node ht fun _ => isPlain_of_isIdentifier (isIdentifier_childName hfirst key),
    ?_, ?_⟩
  · rw [hname]
    exact extends_childName first key
  · rw [htu, followRename_of_name_eq hname]
    rfl

theorem agrees_node_rename (hfirst : isIdentifier first = true) (hsecond : isIdentifier second = true)
    (v : Value) :
    Agrees Eq (fun t u => u = t.rename second) (run.node first v) (run.node second v) := by
  -- The induction is for any two identifiers, because the children have other names.
  induction v generalizing first second with
  | atom a => exact Builder.agrees_atom Eq.refl rfl rfl fun _ => rfl
  | sequence kind items ih =>
    have hitems : Agrees Eq (List.Forall₂ (FollowsTo run.strategies first second))
        (run.elementNodes first items) (run.elementNodes second items) :=
      Builder.agrees_elementNodes (List.forall₂_same.mpr fun item hitem =>
        agrees_child_rename hfirst hsecond (ih item hitem (isIdentifier_childName hfirst _)
          (isIdentifier_childName hsecond _)))
    refine Builder.agrees_sequence Eq.refl rfl (fun _ => rfl) hitems
      fun elementKind trees trees' _ htrees => ?_
    have harranged := (isCorrespondence_followsTo _ _ _).forall₂_arrange elementKind htrees
    rw [rename_ofElements, ← map_eq_of_forall₂ (harranged.imp fun _ _ h => h.eq_followRename),
      List.map_id']
  | mapping entries ih =>
    have hfields : Agrees Eq
        (List.Forall₂ fun f f' => f.1 = f'.1 ∧ FollowsTo run.strategies first second f.2 f'.2)
        (run.fieldNodes first 0 entries) (run.fieldNodes second 0 entries) :=
      Builder.agrees_fieldNodes (List.forall₂_same.mpr fun e he => ⟨rfl, fun i =>
        agrees_child_rename hfirst hsecond ((ih e he).2 (isIdentifier_childName hfirst _)
          (isIdentifier_childName hsecond _))⟩)
    refine Builder.agrees_mapping Eq.refl rfl (fun _ => rfl) hfields
      fun children children' hchildren => ?_
    -- The fields correspond one by one, which makes the second list a map of the first one.
    have hmap : children' = children.map fun f => (f.1, followRename first second f.2) := by
      have hpairs : List.Forall₂ (fun f f' => f' = (f.1, followRename first second f.2))
          children children' :=
        hchildren.imp fun _ _ h => Prod.ext h.1.symm h.2.eq_followRename
      rw [← map_eq_of_forall₂ hpairs, List.map_id']
    rw [rename_ofFields, ← distinctFields_map, hmap]

/-- Inference under two identifiers fails with one error, or the two trees are each other's
    under the other name. Every name is that of the parent with a suffix, and renaming
    exchanges the name of the root in all of them. -/
theorem infer_rename (hfirst : isIdentifier first = true) (hsecond : isIdentifier second = true)
    (v : Value) :
    (∃ e, run.infer first v = .error e ∧ run.infer second v = .error e) ∨
      ∃ t u, run.infer first v = .ok t ∧ run.infer second v = .ok u ∧ t.rename second = u ∧
        (∀ p ∈ t.nodes, ∀ c ∈ p.children, ∃ suffix, suffix ≠ "" ∧ c.name = p.name ++ suffix) ∧
        List.Forall₂ (fun p q => ∃ suffix, p.name = first ++ suffix ∧ q = p.rename (second ++ suffix))
          t.nodes u.nodes := by
  rw [infer_eq, infer_eq, if_pos hfirst, if_pos hsecond]
  rcases (agrees_node_rename hfirst hsecond v).cases_eq with h | ⟨t, u, ht, hu, rfl⟩
  · exact Or.inl h
  · have hwell : WellNamed run.strategies t :=
      wellNamed_of_node ht fun _ => isPlain_of_isIdentifier hfirst
    refine Or.inr ⟨t, _, ht, hu, rfl, fun p hp c hc => ?_, ?_⟩
    · rcases (hwell.of_mem_nodes hp).extends_child hc with ⟨suffix, ⟨d, rest, hsuffix, _⟩, hname⟩
      refine ⟨suffix, ?_, hname⟩
      rintro rfl
      contradiction
    · rw [← name_of_node ht]
      exact hwell.forall₂_nodes_rename second

/-- A list of records, of which two are merged and the third one gets a number. -/
theorem infer_rename_rows :
    let run : Inference := {}
    let rows := Value.sequence .list [.mapping [(.str "id", .int 1)],
      .mapping [(.str "id", .int 2), (.str "at", .str "x")],
      .mapping [(.str "tags", .sequence .list [.str "y"])]]
    isIdentifier "Rows" = true ∧ isIdentifier "Table" = true ∧
      ∃ t u, run.infer "Rows" rows = .ok t ∧ run.infer "Table" rows = .ok u ∧
        t.rename "Table" = u := by
  intro run rows
  have hfirst : isIdentifier "Rows" = true := by decide +kernel
  have hsecond : isIdentifier "Table" = true := by decide +kernel
  have hok : (run.infer "Rows" rows).toBool = true := by decide +kernel
  rcases @infer_rename run _ _ hfirst hsecond rows with ⟨e, herror, _⟩ | ⟨t, u, ht, hu, heq, _⟩
  · rw [herror] at hok
    contradiction
  · exact ⟨hfirst, hsecond, t, u, ht, hu, heq⟩

end Inference

end TypeSketch
