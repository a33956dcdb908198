import TypeSketch.Proofs.Render.Unions
import TypeSketch.Proofs.Tree.Nodes

/-!
# References

The nodes that a declaration refers to. A declaration writes out its node down to the
nodes that have declarations of their own, and these it refers to by name. They can be
far down: containers without a declaration are written out in between.

Not every name in a declaration is a reference. The others are words: the names of scalar
types and of the types of keys, `Any` where nothing is known, and the dots of a tuple.

## Main definitions

* `Declaration.typeNames`: The names of types in a declaration.
* `TypeTree.references`: The nodes that the declaration of a node refers to.
* `TypeTree.IsWord`: The words that a node is written with.

## Theorems

* `TypeTree.mem_references`: References are nodes below with a declaration.
* `TypeTree.name_of_mem_typeNames`: A name in a declaration is a reference or a word.
-/

namespace TypeSketch

/-- The names of types in a declaration. -/
def Declaration.typeNames : Declaration → List String
  | aliasOf _ type => type.names
  | record _ _ fields => fields.flatMap (·.2.names)
  | functionalRecord _ fields => fields.flatMap (·.2.names)

theorem Spelling.names_wrap (constructor : String) (argument : Spelling TypeExpr) :
    (argument.wrap constructor).written.names = argument.written.names := by
  rw [wrap, TypeExpr.names_apply, List.flatMap_singleton]

namespace TypeTree

mutual

/-- The nodes that the declaration of a node refers to. -/
def references (s : Strategies) : TypeTree → List TypeTree
  | scalar .. => []
  | mapping _ _ _ _ _ fields => fieldReferences s fields
  | sequence _ _ _ _ _ elements => elementReferences s elements

def fieldReferences (s : Strategies) : List (Value × TypeTree) → List TypeTree
  | [] => []
  | (_, child) :: rest =>
    (if child.isAliased s then [child] else references s child) ++ fieldReferences s rest

def elementReferences (s : Strategies) : List TypeTree → List TypeTree
  | [] => []
  | child :: rest =>
    (if child.isAliased s then [child] else references s child) ++ elementReferences s rest

end

/-- The nodes that are referred to where a node is used. -/
def useReferences (s : Strategies) (t : TypeTree) : List TypeTree :=
  if t.isAliased s then [t] else t.references s

/-- The words that a node is written with. -/
inductive IsWord (t : TypeTree) : String → Prop
  | any : IsWord t "Any"
  | dots : IsWord t "..."
  | scalar {name : String} {v : Value} {type : ScalarType}
    (node : TypeTree.scalar name v type ∈ t.nodes) : IsWord t type.rendered
  | key {name : String} {v : Value} {height : Nat} {shape : Shape} {fields : List (Value × TypeTree)}
    {f : Value × TypeTree} (node : mapping name v .generic height shape fields ∈ t.nodes)
    (field : f ∈ fields) : IsWord t f.1.typeName

variable {s : Strategies} {t u c : TypeTree} {n : String}

section References

theorem fieldReferences_eq_flatMap (fields : List (Value × TypeTree)) :
    fieldReferences s fields = (fields.map (·.2)).flatMap (useReferences s) := by
  induction fields with
  | nil => rfl
  | cons f rest ih => rw [fieldReferences, ih, List.map_cons, List.flatMap_cons, useReferences]

theorem elementReferences_eq_flatMap (elements : List TypeTree) :
    elementReferences s elements = elements.flatMap (useReferences s) := by
  induction elements with
  | nil => rfl
  | cons e rest ih => rw [elementReferences, ih, List.flatMap_cons, useReferences]

theorem references_eq_flatMap (s : Strategies) (t : TypeTree) :
    t.references s = t.children.flatMap (useReferences s) := by
  cases t with
  | scalar name v type => rfl
  | mapping name v form height shape fields => exact fieldReferences_eq_flatMap fields
  | sequence name v kind height shape elements => exact elementReferences_eq_flatMap elements

theorem mem_useReferences (h : u ∈ t.useReferences s) : u ∈ t.nodes ∧ u.isAliased s = true := by
  induction t using induct_children with
  | node t ih =>
    rw [useReferences] at h
    by_cases haliased : t.isAliased s = true
    · rw [if_pos haliased, List.mem_singleton] at h
      rw [h]
      exact ⟨mem_nodes_self t, haliased⟩
    · -- The node is written out, so what it refers to is below one of its children.
      rw [if_neg haliased, references_eq_flatMap, List.mem_flatMap] at h
      rcases h with ⟨c, hc, hu⟩
      rcases ih c hc hu with ⟨hnode, haliased⟩
      exact ⟨mem_nodes_of_child hc hnode, haliased⟩

/-- A declaration refers to nodes below its own, and each of them has a declaration. -/
theorem mem_references (h : u ∈ t.references s) : u ∈ t.descendants ∧ u.isAliased s = true := by
  rw [references_eq_flatMap, List.mem_flatMap] at h
  rcases h with ⟨c, hc, hu⟩
  rcases mem_useReferences hu with ⟨hnode, haliased⟩
  exact ⟨mem_descendants.mpr ⟨c, hc, hnode⟩, haliased⟩

end References

section Names

theorem IsWord.of_child (hc : c ∈ t.children) (h : c.IsWord n) : t.IsWord n := by
  cases h with
  | any => exact .any
  | dots => exact .dots
  | scalar node => exact .scalar (mem_nodes_of_child hc node)
  | key node field => exact .key (mem_nodes_of_child hc node) field

theorem spellFieldUses_eq_map (fields : List (Value × TypeTree)) :
    spellFieldUses s fields = (fields.map (·.2)).map (spellUse s) := by
  induction fields with
  | nil => rfl
  | cons f rest ih => rw [spellFieldUses, ih, List.map_cons, List.map_cons, spellUse]

theorem spellElementUses_eq_map (elements : List TypeTree) :
    spellElementUses s elements = elements.map (spellUse s) := by
  induction elements with
  | nil => rfl
  | cons e rest ih => rw [spellElementUses, ih, List.map_cons, spellUse]

/-- A name in a list of types stands in one of them, if it is not there for want of any. -/
theorem names_listed {types : List TypeExpr} (h : n ∈ (Spelling.listed types).written.flatMap (·.names)) :
    n = "Any" ∨ ∃ e ∈ types, n ∈ e.names := by
  rw [Spelling.listed] at h
  split at h
  · exact Or.inl (List.mem_singleton.mp h)
  · exact Or.inr (List.mem_flatMap.mp h)

/-- A name in a sequence stands in one of its elements. -/
theorem names_spellSequence {kind : ElementKind} {elements : List (Spelling TypeExpr)}
    (h : n ∈ (spellSequence s kind elements).written.names) :
    n = "Any" ∨ n = "..." ∨ ∃ e ∈ elements.map (·.written), n ∈ e.names := by
  -- All kinds but tuples of fixed size have one union of their elements.
  have hunion : n ∈ (Spelling.union (elements.map (·.written))).written.names →
      n = "Any" ∨ n = "..." ∨ ∃ e ∈ elements.map (·.written), n ∈ e.names :=
    fun h => (Spelling.names_union h).imp_right Or.inr
  cases kind with
  | list => exact hunion (by simpa only [spellSequence, Spelling.names_wrap] using h)
  | set frozen =>
    cases frozen <;> exact hunion (by simpa only [spellSequence, Spelling.names_wrap] using h)
  | iterator => exact hunion (by simpa only [spellSequence, Spelling.names_wrap] using h)
  | tuple size =>
    cases size with
    | fixed =>
      rw [spellSequence, TypeExpr.names_apply, List.flatMap_append, List.mem_append] at h
      rcases h with h | h
      · exact (names_listed h).imp_right Or.inr
      · rcases List.mem_flatMap.mp h with ⟨e, he, hn⟩
        -- An empty tuple is written with an empty tuple as its argument.
        split at he
        · rw [List.mem_singleton.mp he] at hn
          exact Or.inr (Or.inl (List.mem_singleton.mp hn))
        · exact absurd he List.not_mem_nil
    | anySize =>
      rw [spellSequence, TypeExpr.names_apply, List.flatMap_cons, List.mem_append] at h
      -- A tuple of any size has the union of its elements and dots.
      rcases h with h | h
      · exact hunion h
      · rw [List.flatMap_singleton] at h
        exact Or.inr (Or.inl (List.mem_singleton.mp h))

/-- A name in a generic mapping stands in one of its values or is that of a type of keys. -/
theorem names_spellGeneric {keyTypes : List String} {values : List (Spelling TypeExpr)}
    (h : n ∈ (spellGeneric s keyTypes values).written.names) :
    n = "Any" ∨ n ∈ keyTypes ∨ ∃ e ∈ values.map (·.written), n ∈ e.names := by
  rw [spellGeneric, TypeExpr.names_apply, List.flatMap_cons, List.flatMap_singleton,
    List.mem_append] at h
  rcases h with h | h
  · refine (Spelling.names_union h).imp_right fun ⟨e, he, hn⟩ => Or.inl ?_
    rcases List.mem_map.mp he with ⟨keyType, hkey, rfl⟩
    rw [List.mem_singleton.mp hn]
    exact hkey
  · exact (Spelling.names_union h).imp_right Or.inr

/-- A name in a declaration stands where one of the children is used or is a word. -/
theorem typeNames_spellDeclaration (h : n ∈ (t.spellDeclaration s).written.typeNames) :
    (∃ c ∈ t.children, n ∈ (c.spellUse s).written.names) ∨ t.IsWord n := by
  have huse : (∃ e ∈ (t.children.map (spellUse s)).map (·.written), n ∈ e.names) →
      ∃ c ∈ t.children, n ∈ (c.spellUse s).written.names := by
    rintro ⟨e, he, hn⟩
    rw [List.map_map] at he
    rcases List.mem_map.mp he with ⟨c, hc, rfl⟩
    exact ⟨c, hc, hn⟩
  -- A record is declared by its rows, and any other node by the type that it stands for.
  cases t with
  | scalar name v type =>
    rw [List.mem_singleton.mp h]
    exact Or.inr (.scalar (mem_nodes_self _))
  | sequence name v kind height shape elements =>
    simp only [spellDeclaration, Declaration.typeNames, spell, spellElementUses_eq_map] at h
    rcases names_spellSequence h with rfl | rfl | h
    · exact Or.inr .any
    · exact Or.inr .dots
    · exact Or.inl (huse h)
  | mapping name v form height shape fields =>
    cases form with
    | generic =>
      simp only [spellDeclaration, Declaration.typeNames, spell, spellFieldUses_eq_map] at h
      rcases names_spellGeneric h with rfl | h | h
      · exact Or.inr .any
      · rcases List.mem_map.mp h with ⟨f, hf, rfl⟩
        exact Or.inr (.key (mem_nodes_self _) hf)
      · exact Or.inl (huse h)
    | record profile =>
      -- What says that a field is optional or read-only is a constructor and adds no name.
      have hrow : ∀ f : Value × TypeTree,
          (spellField s profile f.1 f.2).written.2.names = (f.2.spellUse s).written.names := by
        intro f
        rw [spellField]
        dsimp only
        split <;> split <;> simp only [Spelling.names_wrap]
      have hrows : (spellDeclaration s
          (.mapping name v (.record profile) height shape fields)).written.typeNames =
          (fields.map fun f => (spellField s profile f.1 f.2).written).flatMap (·.2.names) := by
        rw [spellDeclaration]
        dsimp only
        rw [List.map_map]
        split <;> rfl
      rw [hrows, List.mem_flatMap] at h
      rcases h with ⟨row, hr, hn⟩
      rcases List.mem_map.mp hr with ⟨f, hf, rfl⟩
      rw [hrow] at hn
      exact Or.inl ⟨f.2, List.mem_map_of_mem hf, hn⟩

/-- A node is declared field by field or by an alias. -/
theorem spellDeclaration_of_not_record (h : t.isRecord = false) :
    t.spellDeclaration s = ⟨.aliasOf t.name (t.spell s).written, (t.spell s).symbols⟩ := by
  cases t with
  | scalar name v type => rfl
  | mapping name v form height shape fields =>
    cases form with
    | record profile => contradiction
    | generic => rfl
  | sequence name v kind height shape elements => rfl

theorem name_spellDeclaration (s : Strategies) (t : TypeTree) :
    (t.spellDeclaration s).written.name = t.name := by
  cases t with
  | scalar name v type => rfl
  | sequence name v kind height shape elements => rfl
  | mapping name v form height shape fields =>
    cases form with
    | generic => rfl
    | record profile =>
      rw [spellDeclaration]
      dsimp only
      split <;> rfl

/-- A node without a declaration is used as it would be declared. -/
theorem spellDeclaration_of_not_aliased (h : t.isAliased s = false) :
    (t.spellDeclaration s).written = .aliasOf t.name (t.spellUse s).written := by
  have hrecord : t.isRecord = false := by
    rw [Bool.eq_false_iff]
    intro hrecord
    rw [isAliased_of_isRecord hrecord] at h
    contradiction
  rw [spellUse, h, if_neg Bool.false_ne_true, spellDeclaration_of_not_record hrecord]

/-- A node hands on what its children know of the names in them. -/
theorem name_of_mem_names_step
    (ih : ∀ c ∈ t.children, ∀ n ∈ (c.spellUse s).written.names,
      (∃ u ∈ c.useReferences s, u.name = n) ∨ c.IsWord n)
    (h : n ∈ (t.spellDeclaration s).written.typeNames) :
    (∃ u ∈ t.references s, u.name = n) ∨ t.IsWord n := by
  rcases typeNames_spellDeclaration h with ⟨c, hc, hn⟩ | hword
  · rcases ih c hc n hn with ⟨u, hu, hname⟩ | hword
    · refine Or.inl ⟨u, ?_, hname⟩
      rw [references_eq_flatMap]
      exact List.mem_flatMap.mpr ⟨c, hc, hu⟩
    · exact Or.inr (hword.of_child hc)
  · exact Or.inr hword

/-- Where a node is used, all names are references or words. -/
theorem name_of_mem_names (t : TypeTree) :
    ∀ n ∈ (t.spellUse s).written.names, (∃ u ∈ t.useReferences s, u.name = n) ∨ t.IsWord n := by
  induction t using induct_children with
  | node t ih =>
    intro n h
    by_cases haliased : t.isAliased s = true
    · rw [spellUse, if_pos haliased] at h
      rw [useReferences, if_pos haliased]
      exact Or.inl ⟨t, List.mem_singleton_self t, (List.mem_singleton.mp h).symm⟩
    · rw [useReferences, if_neg haliased]
      refine name_of_mem_names_step ih ?_
      rw [spellDeclaration_of_not_aliased (Bool.not_eq_true _ ▸ haliased)]
      exact h

/-- A name in a declaration is the name of a node that it refers to, or a word. -/
theorem name_of_mem_typeNames (h : n ∈ (t.spellDeclaration s).written.typeNames) :
    (∃ u ∈ t.references s, u.name = n) ∨ t.IsWord n :=
  name_of_mem_names_step (fun c _ => name_of_mem_names c) h

end Names

end TypeTree

end TypeSketch
