import TypeSketch.Proofs.Render.Sequential
import TypeSketch.Proofs.Tree.Tabular

/-!
# Rendering Trees of Tables

Nested sequences of rows have a tree, and the tree can be rendered if and only if inlined
siblings agree in it. Numbers keep apart what has a declaration, and the records below it
with it. A sequence without a declaration has no number, so two such siblings lead to
records of one name, and those can differ.

Where containers from a height of two on have a declaration, an inlined sequence has no
records below it. From three on there is a value that cannot be rendered.

## Theorems

* `Inference.exists_node_of_isTabular`: Nested sequences of rows have a tree.
* `Inference.render_tabular`: When they can be rendered.
-/

namespace TypeSketch

namespace Inference

open TypeTree Naming

/-- Nested sequences of rows have a tree under every identifier. -/
theorem exists_node_of_isTabular {run : Inference}
    (hmapping : run.registry.get? .mapping = some (.container .mapping))
    (hrules : ∀ kind, ∃ rule elementKind,
      run.registry.get? (.sequence kind) = some (.container rule) ∧
      rule.elementKind? run.strategies.tupleSize kind = some elementKind)
    {v : Value} (hv : v.IsTabular run.registry) {name : String}
    (hname : isIdentifier name = true) : ∃ t, run.node name v = .ok t := by
  induction hv generalizing name with
  | @atom a registered =>
    rcases registered with ⟨type, hget⟩
    exact ⟨.scalar name (.atom a) type, node_of_isNode (.scalar hget)⟩
  | @sequence kind items _ _ ih =>
    -- The name of an element is an identifier, so there is nothing that could be refused.
    have hchild : ∀ item ∈ items, ∃ t, run.child name (.element item) item = .ok t := by
      intro item hitem
      rw [child_eq_node hname]
      exact ih item hitem (isIdentifier_childName hname _)
    rcases exists_forall₂_of_forall_exists hchild with ⟨trees, htrees⟩
    rcases hrules kind with ⟨rule, elementKind, hget, hkind⟩
    exact ⟨_, node_of_isNode (.sequence hget hkind htrees)⟩
  -- The values of a row are atoms, so their trees need no induction.
  | @row entries _ values =>
    have hfield : ∀ entry ∈ entries.zipIdx, ∃ f, run.IsField name entry f := by
      rintro ⟨⟨key, item⟩, i⟩ hentry
      rcases values _ (List.fst_mem_of_mem_zipIdx hentry) with ⟨a, type, hvalue, hget⟩
      dsimp only at hvalue
      rw [hvalue]
      exact ⟨_, isField_of_scalar hget⟩
    rcases exists_forall₂_of_forall_exists hfield with ⟨children, hchildren⟩
    exact ⟨_, node_of_isNode (.mapping hmapping hchildren)⟩

/-- Nested sequences of rows have a tree under every identifier, and the tree can be rendered
    if and only if inlined siblings agree in it. So it can be if containers from a height of
    two on have a declaration. -/
theorem render_tabular {types : List (String × ScalarType)} {s : Strategies} {name : String}
    {v : Value} (hstyle : s.dictStyle = .typedDict) (hv : v.IsTabular (Registry.extended types))
    (hname : isIdentifier name = true) :
    ∃ t, infer { strategies := s, registry := Registry.extended types } name v = .ok t ∧
      ((∃ session, t.render s = .ok session) ↔ InlinedAgree s t) ∧
      (s.aliasHeight ≤ 2 → ∃ session, t.render s = .ok session) := by
  have hget : ∀ {kind : ValueKind}, (∀ k, kind ≠ .atom k) →
      (Registry.extended types).get? kind = Registry.standard.get? kind :=
    fun hkind => Registry.get?_extended_of_container hkind
  have hrules : ∀ kind, ∃ rule elementKind,
      (Registry.extended types).get? (.sequence kind) = some (.container rule) ∧
        rule.elementKind? s.tupleSize kind = some elementKind := by
    intro kind
    rw [hget fun _ => ValueKind.noConfusion]
    cases kind <;> exact ⟨_, _, rfl, rfl⟩
  rcases @exists_node_of_isTabular { strategies := s, registry := Registry.extended types }
    (hget fun _ => ValueKind.noConfusion) hrules v hv name hname with ⟨t, hnode⟩
  have hinfer := infer_eq_ok_iff.mpr ⟨hname, hnode⟩
  have hcoherent := coherent_of_node hnode
  have htabular : IsTabular s t := by
    refine isTabular_of_node hstyle (fun kind rule elementKind hne hrule hkind => ?_) hv hnode
    -- Every sequence that is no tuple keeps its own rule, and none makes a tuple of it.
    rw [hget fun _ => ValueKind.noConfusion] at hrule
    cases kind with
    | tuple => contradiction
    | list => cases hrule; cases hkind; exact ElementKind.noConfusion
    | set => cases hrule; cases hkind; exact ElementKind.noConfusion
    | frozenset => cases hrule; cases hkind; exact ElementKind.noConfusion
    | iterator => cases hrule; cases hkind; exact ElementKind.noConfusion
  have hiff : (∃ session, t.render s = .ok session) ↔ InlinedAgree s t := by
    rw [render_eq_ok_iff, (wellNamed_of_infer hinfer).isUnambiguous_iff]
    constructor
    -- Siblings and the nodes below them are nodes of the whole tree.
    · intro hagree p hp c hc c' hc' _ _ u hu u' hu' hua hua' hsame
      have hnode : ∀ {c u : TypeTree}, c ∈ p.children → u ∈ c.nodes → u ∈ t.nodes :=
        fun hc hu => mem_nodes_trans hp (mem_nodes_of_child hc hu)
      exact hagree u (hnode hc hu) u' (hnode hc' hu') hua hua' hsame
    · intro hagree u hu w hw hua hwa hsame
      exact htabular.digest_eq_of_name_eq hagree hu hw hua hwa hsame
  exact ⟨t, hinfer, hiff, fun hheight =>
    hiff.mpr (htabular.inlinedAgree_of_aliasHeight_le hcoherent hheight)⟩

section Apart

variable {s : Strategies} {name parent key : String}

/-- A row with one field. -/
def row (key : String) : Value := .mapping [(.str key, .int 1)]

/-- A list of one row. -/
def rowList (key : String) : Value := .sequence .list [row key]

/-- Two lists of one row each, whose fields have different keys. -/
def rowLists : Value := .sequence .list [rowList "a", rowList "b"]

theorem isTabular_rowLists : rowLists.IsTabular (Registry.extended []) := by
  have hlist : ∀ key, (rowList key).IsTabular (Registry.extended []) := fun key =>
    .sequence (by decide) (List.forall_mem_singleton.mpr (.row rfl
      (List.forall_mem_singleton.mpr ⟨_, _, rfl, rfl⟩)))
  exact .sequence (by decide) (List.forall_mem_cons.mpr
    ⟨hlist "a", List.forall_mem_singleton.mpr (hlist "b")⟩)

/-- The tree of a row as an element. -/
def rowTree (s : Strategies) (parent key : String) : TypeTree :=
  .ofFields (parent ++ "Dict") (row key) (mappingForm s [(.str key, .int 1)])
    [(.str key, .scalar (Naming.childName (parent ++ "Dict") (.field (.str key) 0)) (.int 1)
      ⟨"int", none⟩)]

/-- The tree of a list of one row. -/
def rowListTree (s : Strategies) (parent key : String) : TypeTree :=
  .ofElements (parent ++ "List") (rowList key) .list [rowTree s (parent ++ "List") key]

theorem shape_rowTree (hstyle : s.dictStyle = .typedDict) :
    (rowTree s parent key).shape = .node (.record [(key, true)]) [.scalar "int"] := by
  have hform : mappingForm s [(.str key, .int 1)] = .record _ := if_pos ⟨hstyle, rfl⟩
  rw [rowTree, hform]
  rfl

theorem isAliased_rowTree (hstyle : s.dictStyle = .typedDict) :
    (rowTree s parent key).isAliased s = true := by
  have hform : mappingForm s [(.str key, .int 1)] = .record _ := if_pos ⟨hstyle, rfl⟩
  rw [rowTree, hform]
  rfl

theorem child_rowList (hparent : isIdentifier parent = true) :
    child { strategies := s, registry := Registry.extended [] } parent (.element (rowList key))
      (rowList key) = .ok (rowListTree s parent key) := by
  have hlist : isIdentifier (parent ++ "List") = true := by
    have hname := SequenceKind.childName_sequence parent .list [row key]
    rw [SequenceKind.word] at hname
    rw [← hname]
    exact isIdentifier_childName hparent _
  have hrow : child { strategies := s, registry := Registry.extended [] } (parent ++ "List")
      (.element (row key)) (row key) = .ok (rowTree s (parent ++ "List") key) := by
    rw [child_eq_node hlist, row, childName_mapping]
    refine node_of_isNode (@IsNode.mapping _ _ _ [(.str key, .scalar _ (.int 1) ⟨"int", none⟩)] rfl ?_)
    exact .cons (isField_of_scalar rfl) .nil
  -- A single row is neither repeated nor merged, and it gets no number.
  have hone : arrange s .list [rowTree s (parent ++ "List") key] =
      [rowTree s (parent ++ "List") key] := by
    simp [arrange, dropRepeated, dropSeen, mergeSimilar, place, disambiguate, disambiguateFrom,
      ordinal]
  rw [child_eq_node hparent, rowListTree, ← hone, rowList, SequenceKind.childName_sequence]
  exact node_of_isNode (.sequence rfl rfl (.cons hrow .nil))

/-- Where lists of rows have no declaration, two of them can lead to two records of one
    name. -/
theorem not_render_rowLists (hstyle : s.dictStyle = .typedDict) (hheight : 2 < s.aliasHeight)
    (hname : isIdentifier name = true) :
    ∃ t, infer { strategies := s, registry := Registry.extended [] } name rowLists = .ok t ∧
      ¬∃ session, t.render s = .ok session := by
  -- The lists are too low to be declared, so they get no number when they are put together.
  have hinlined : ∀ key, (rowListTree s name key).isAliased s = false := by
    intro key
    have hlow : (rowListTree s name key).height = 2 := rfl
    rw [rowListTree, ofElements, isAliased, decide_eq_false_iff_not]
    rw [rowListTree, ofElements, height] at hlow
    omega
  -- The rows differ in their only key, and so do the lists of them.
  have hapart : (rowTree s (name ++ "List") "a").digest ≠ (rowTree s (name ++ "List") "b").digest := by
    rw [digest, digest, shape_rowTree hstyle, shape_rowTree hstyle]
    decide +kernel
  have hdigests : (rowListTree s name "a").digest ≠ (rowListTree s name "b").digest := by
    rw [rowListTree, rowListTree, ofElements, ofElements, digest, digest, shape, shape, shapeOfElements,
      shapeOfElements, unorderedShapes, unorderedShapes, List.map_singleton, List.map_singleton,
      shape_rowTree hstyle, shape_rowTree hstyle]
    decide +kernel
  have harrange : arrange s .list [rowListTree s name "a", rowListTree s name "b"] =
      [rowListTree s name "a", rowListTree s name "b"] := by
    rw [arrange_sequences rfl rfl hdigests]
    simp [disambiguate, disambiguateFrom, hinlined]
  have hinfer := infer_eq_ok_iff.mpr ⟨hname, node_of_isNode (@IsNode.sequence
    { strategies := s, registry := Registry.extended [] } name .list [rowList "a", rowList "b"]
    .list .list _ rfl rfl (.cons (child_rowList hname) (.cons (child_rowList hname) .nil)))⟩
  dsimp only at hinfer
  rw [harrange] at hinfer
  refine ⟨_, hinfer, fun hrender => hapart ?_⟩
  -- The two rows are nodes of the tree, both declared under one name.
  refine render_eq_ok_iff.mp hrender _ _ ⟨?_, Or.inr (isAliased_rowTree hstyle)⟩
    ⟨?_, Or.inr (isAliased_rowTree hstyle)⟩ rfl
  · exact mem_nodes_of_child List.mem_cons_self (mem_nodes_of_child List.mem_cons_self
      (mem_nodes_self _))
  · exact mem_nodes_of_child (List.mem_cons_of_mem _ List.mem_cons_self)
      (mem_nodes_of_child List.mem_cons_self (mem_nodes_self _))

end Apart

/-- Lists of rows with declarations of their own are numbered, and the rows with them. -/
theorem render_tabular_numbered :
    ∃ t, infer { strategies := { aliasHeight := 2 }, registry := Registry.extended [] } "E"
        rowLists = .ok t ∧ ∃ session, t.render { aliasHeight := 2 } = .ok session := by
  rcases @render_tabular [] { aliasHeight := 2 } "E" _ rfl isTabular_rowLists
    (by decide +kernel) with ⟨t, ht, _, hrender⟩
  exact ⟨t, ht, hrender (by decide)⟩

/-- If lists of rows are inlined, there is no module. -/
theorem render_tabular_inlined :
    rowLists.IsTabular (Registry.extended []) ∧ isIdentifier "E" = true ∧
      ∃ t, infer { strategies := { aliasHeight := 3 }, registry := Registry.extended [] } "E"
          rowLists = .ok t ∧ ¬∃ session, t.render { aliasHeight := 3 } = .ok session :=
  ⟨isTabular_rowLists, by decide +kernel,
    @not_render_rowLists { aliasHeight := 3 } "E" rfl (by decide) (by decide +kernel)⟩

end Inference

end TypeSketch
