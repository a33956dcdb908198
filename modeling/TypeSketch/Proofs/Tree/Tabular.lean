import TypeSketch.Proofs.Tree.Coherence
import TypeSketch.Proofs.Tree.TokenNames

/-!
# Trees of Tables

Sequences of rows, where the rows are records of atoms and the sequences can be nested.
Records have no further containers in them, so on the way to a record there are only
sequences, and each appends a token to the name. There is one sibling of each digest, and
siblings with a declaration are numbered.

A sequence too low for a declaration is not numbered, but the records below it are declared
all the same. Two such siblings of one kind have one name, and records below them can get
one name, too. This is the only way in which two names can clash, and it takes a height of
three for a declaration: lower sequences without one have no records below them.

## Main definitions

* `Value.IsTabular`: Nested sequences of rows.
* `TypeTree.IsTabular`: Trees of such values.
* `TypeTree.InlinedAgree`: What is declared below siblings without a declaration agrees.

## Theorems

* `TypeTree.IsTabular.rename`, `TypeTree.IsMerge.isTabular`, `TypeTree.isTabular_arrange`: What
  keeps trees tabular.
* `TypeTree.IsTabular.digest_eq_of_name_eq`: Nodes of one name have one digest where inlined
  siblings agree.
* `TypeTree.IsTabular.inlinedAgree_of_aliasHeight_le`: Where they always agree.
* `Inference.isTabular_of_node`: Inferred trees of nested sequences of rows are tabular.
-/

namespace TypeSketch

/-- Rows of atoms in sequences that are no tuples. The kinds of all atoms are registered. -/
inductive Value.IsTabular (r : Registry) : Value → Prop
  | atom {a : Atom} (registered : ∃ type, r.get? (.atom a.kind) = some (.scalar type)) :
    IsTabular r (.atom a)
  | sequence {kind : SequenceKind} {items : List Value} (kind_ne : kind ≠ .tuple)
    (items_tabular : ∀ item ∈ items, IsTabular r item) : IsTabular r (.sequence kind items)
  | row {entries : List (Value × Value)} (keys : Inference.hasTextKeys entries = true)
    (values : ∀ e ∈ entries, ∃ a type, e.2 = .atom a ∧ r.get? (.atom a.kind) = some (.scalar type)) :
    IsTabular r (.mapping entries)

namespace TypeTree

open Naming

/-- Whether the node is that of a scalar type. -/
def isScalar : TypeTree → Bool
  | scalar .. => true
  | _ => false

/-- Fields of records are scalar, and elements of sequences are named by tokens, told apart
    where they have a declaration, and not repeated. -/
inductive IsTabular (s : Strategies) : TypeTree → Prop
  | scalar (name : String) (v : Value) (type : ScalarType) : IsTabular s (.scalar name v type)
  | record {name : String} {v : Value} {profile : RecordProfile} {height : Nat} {shape : Shape}
    {fields : List (Value × TypeTree)} (flat : ∀ f ∈ fields, f.2.isScalar = true) :
    IsTabular s (.mapping name v (.record profile) height shape fields)
  | sequence {name : String} {v : Value} {kind : ElementKind} {height : Nat} {shape : Shape}
    {elements : List TypeTree} (children : ∀ e ∈ elements, IsTabular s e)
    (named : ∀ e ∈ elements, e.isScalar = false → ∃ token, IsToken token ∧ e.name = name ++ token)
    (apart : AreApart s elements) (distinct : (elements.map TypeTree.digest).Nodup) :
    IsTabular s (.sequence name v kind height shape elements)

/-- What gets a declaration below two siblings of one name agrees if one of the siblings has
    no declaration itself. -/
def InlinedAgree (s : Strategies) (t : TypeTree) : Prop :=
  ∀ p ∈ t.nodes, ∀ c ∈ p.children, ∀ c' ∈ p.children, c.isAliased s = false → c.name = c'.name →
    AgreeBelow s c c'

variable {s : Strategies} {t c d u w : TypeTree}

section Scalars

theorem isScalar_of_isAliased (h : t.isAliased s = true) : t.isScalar = false := by
  cases t with
  | scalar name v type => exact absurd h Bool.false_ne_true
  | mapping name v form height shape fields => rfl
  | sequence name v kind height shape elements => rfl

theorem not_hasAlias_of_isScalar (h : t.isScalar = true) : ¬HasAlias s t := by
  rintro ⟨u, hu, haliased⟩
  cases t with
  | scalar name v type =>
    rw [List.mem_singleton.mp hu] at haliased
    exact Bool.false_ne_true haliased
  | mapping name v form height shape fields => contradiction
  | sequence name v kind height shape elements => contradiction

theorem isScalar_rename (newName : String) (t : TypeTree) :
    (t.rename newName).isScalar = t.isScalar := by
  cases t <;> rfl

theorem isScalar_followRename (oldName newName : String) (t : TypeTree) :
    (followRename oldName newName t).isScalar = t.isScalar := by
  rcases followRename_cases oldName newName t with heq | ⟨suffix, _, heq⟩
  · rw [heq]
  · rw [heq, isScalar_rename]

theorem isScalar_withOrdinal (t : TypeTree) (i : Nat) :
    (t.withOrdinal i).isScalar = t.isScalar := by
  unfold withOrdinal
  split
  · rfl
  · rw [isScalar_rename]

end Scalars

section Agreement

theorem IsTabular.child (hc : c ∈ t.children) (h : IsTabular s t) : IsTabular s c := by
  cases h with
  | scalar name v type => exact absurd hc List.not_mem_nil
  | record flat =>
    rcases List.mem_map.mp hc with ⟨f, hf, rfl⟩
    have hflat := flat f hf
    cases hchild : f.2 with
    | scalar name v type => exact IsTabular.scalar name v type
    | mapping name v form height shape fields => rw [hchild] at hflat; contradiction
    | sequence name v kind height shape elements => rw [hchild] at hflat; contradiction
  | sequence children _ _ _ => exact children c hc

theorem IsTabular.of_mem_nodes (h : IsTabular s t) (hu : u ∈ t.nodes) : IsTabular s u :=
  forall_mem_nodes (fun _ _ hc ht => ht.child hc) h u hu

/-- A node with a declaration below one of its children is a sequence. -/
theorem IsTabular.siblings (h : IsTabular s t) (hc : c ∈ t.children) (halias : HasAlias s c) :
    (∃ token, IsToken token ∧ c.name = t.name ++ token) ∧ AreApart s t.children ∧
      (t.children.map TypeTree.digest).Nodup := by
  cases h with
  | scalar name v type => exact absurd hc List.not_mem_nil
  | record flat =>
    rcases List.mem_map.mp hc with ⟨f, hf, rfl⟩
    exact absurd halias (not_hasAlias_of_isScalar (flat f hf))
  | sequence _ named apart distinct =>
    refine ⟨named c hc ?_, apart, distinct⟩
    rw [← Bool.not_eq_true]
    exact fun hscalar => not_hasAlias_of_isScalar hscalar halias

theorem IsTabular.hasTokenNames (h : IsTabular s t) : HasTokenNames s t :=
  fun _ hp _ hc halias => ((h.of_mem_nodes hp).siblings hc halias).1

/-- Nodes of one name have one digest if inlined siblings agree. -/
theorem IsTabular.digest_eq_of_name_eq (h : IsTabular s t) (hagree : InlinedAgree s t)
    (hu : u ∈ t.nodes) (hw : w ∈ t.nodes) (hua : u.isAliased s = true) (hwa : w.isAliased s = true)
    (hname : u.name = w.name) : u.digest = w.digest := by
  refine h.hasTokenNames.digest_eq_of_name_eq (fun p hp c hc d hd hne hsame hca _ => ?_)
    hu hw hua hwa hname
  rcases (h.of_mem_nodes hp).siblings hc hca with ⟨_, hapart, hdistinct⟩
  -- Two siblings with a declaration and one name would be one and the same.
  by_cases haliased : c.isAliased s = true
  · by_cases haliased' : d.isAliased s = true
    · have hdigest := hapart c hc d hd haliased haliased' hsame
      exact absurd (List.inj_on_of_nodup_map hdistinct hc hd hdigest) hne
    · rw [Bool.not_eq_true] at haliased'
      exact (hagree p hp d hd c hc haliased' hsame.symm).symm
  · rw [Bool.not_eq_true] at haliased
    exact hagree p hp c hc d hd haliased hsame

theorem height_lt_of_inlined {name : String} {v : Value} {kind : ElementKind} {height : Nat}
    {shape : Shape} {elements : List TypeTree}
    (hinlined : (sequence name v kind height shape elements).isAliased s = false) :
    height < s.aliasHeight := by
  rw [isAliased, decide_eq_false_iff_not] at hinlined
  omega

/-- A sequence without a declaration that has one below it has a height of two at least. -/
theorem IsTabular.two_lt_aliasHeight (h : IsTabular s t) (hcoherent : Coherent s t)
    (hinlined : t.isAliased s = false) (halias : HasAlias s t) : 2 < s.aliasHeight := by
  rcases halias with ⟨u, hu, haliased⟩
  have hbelow : u ∈ t.descendants := by
    rcases mem_nodes.mp hu with rfl | hu
    · exact absurd haliased (by rw [hinlined]; exact Bool.false_ne_true)
    · exact hu
  rcases mem_descendants.mp hbelow with ⟨c, hc, hu⟩
  have hpos := (hcoherent.of_mem_nodes (mem_nodes_of_child hc hu)).height_pos_of_isAliased haliased
  have hle := (hcoherent.child hc).height_le_of_mem_nodes hu
  have hlt := hcoherent.height_lt_of_child hc
  -- Between the root and what is declared below it there is at least one step in height.
  cases h with
  | scalar name v type => exact absurd hc List.not_mem_nil
  | record flat => exact absurd hinlined.symm Bool.false_ne_true
  | sequence _ _ _ _ =>
    have hlow := height_lt_of_inlined hinlined
    rw [height.eq_3] at hlt
    omega

/-- Where containers from a height of two on have a declaration, inlined siblings agree. -/
theorem IsTabular.inlinedAgree_of_aliasHeight_le (h : IsTabular s t) (hcoherent : Coherent s t)
    (hheight : s.aliasHeight ≤ 2) : InlinedAgree s t := by
  intro p hp c hc _ _ hinlined _ u hu _ _ hua
  have hc := mem_nodes_trans hp (mem_nodes_of_child hc (mem_nodes_self c))
  have hlt := (h.of_mem_nodes hc).two_lt_aliasHeight (hcoherent.of_mem_nodes hc) hinlined ⟨u, hu, hua⟩
  omega

end Agreement

section Arranging

variable {kind : ElementKind} {parent : String} {trees : List TypeTree}

theorem IsTabular.rename (h : IsTabular s t) (newName : String) :
    IsTabular s (t.rename newName) := by
  induction h generalizing newName with
  | scalar name v type => exact IsTabular.scalar newName v type
  -- The fields of a row are scalars, whatever they are called.
  | record flat =>
    rw [TypeTree.rename, renameFields_eq_map]
    refine IsTabular.record (List.forall_mem_map.mpr fun f hf => ?_)
    rw [isScalar_followRename]
    exact flat f hf
  | @sequence name v kind height shape elements children named apart distinct ih =>
    rw [TypeTree.rename, renameElements_eq_map]
    refine IsTabular.sequence (List.forall_mem_map.mpr fun e he => ?_)
      (List.forall_mem_map.mpr fun e he hscalar => ?_) (apart.map_followRename _ ?_) ?_
    -- A child is renamed along with its parent, or it is not called after it.
    · rcases followRename_cases name newName e with heq | ⟨suffix, _, heq⟩ <;> rw [heq]
      · exact children e he
      · exact ih e he _
    · rw [isScalar_followRename] at hscalar
      rcases named e he hscalar with ⟨token, htoken, hold⟩
      exact ⟨token, htoken, by rw [followRename_of_name_eq hold, name_rename]⟩
    · intro e he haliased
      rcases named e he (isScalar_of_isAliased haliased) with ⟨token, _, hold⟩
      exact ⟨token, hold⟩
    · rw [map_digest_followRename]
      exact distinct

theorem IsTabular.withOrdinal (h : IsTabular s t) (i : Nat) : IsTabular s (t.withOrdinal i) := by
  unfold TypeTree.withOrdinal
  split
  · exact h
  · exact h.rename _

/-- A merge of records of scalars is one. -/
theorem IsMerge.isTabular {similarity : Nat} {a b m : TypeTree} (h : IsMerge similarity a b m)
    (ha : IsTabular s a) (hb : IsTabular s b) : IsTabular s m := by
  cases h
  rcases ha with _ | ⟨hflat⟩
  rcases hb with _ | ⟨hflat'⟩
  refine IsTabular.record (forall_mem_mergeFields (P := fun c => c.isScalar = true) hflat ?_)
  intro g hg
  rw [adopt_eq_followRename, isScalar_followRename]
  exact hflat' g hg

/-- A tree that is no scalar is named by a word. -/
def IsNamedByWord (parent : String) (t : TypeTree) : Prop :=
  t.isScalar = false → ∃ word, IsStem word ∧ t.name = parent ++ word

/-- The sequence of arranged trees is tabular, if the trees are and if those of them that are
    no scalars are named by words. -/
theorem isTabular_arrange (hkind : kind ≠ .tuple .fixed)
    (h : ∀ t ∈ trees, IsTabular s t ∧ IsNamedByWord parent t) (v : Value) :
    IsTabular s (ofElements parent v kind (arrange s kind trees)) := by
  -- A merge has the name of its first record, so trees are named by words when they are numbered.
  have hkept : ∀ t ∈ mergeSimilar s.similarity (dropRepeated trees),
      IsTabular s t ∧ IsNamedByWord parent t := by
    refine forall_mem_mergeSimilar ?_ fun t ht => h t (mem_of_mem_dropSeen ht)
    intro a b m ha hb hm
    refine ⟨hm.isTabular ha.1 hb.1, ?_⟩
    cases hm
    exact ha.2
  rw [arrange_of_ne_fixed hkind]
  refine IsTabular.sequence (fun e he => ?_) (fun e he hscalar => ?_)
    (areApart_disambiguate fun t ht haliased => (hkept t ht).2 (isScalar_of_isAliased haliased)) ?_
  · rcases exists_withOrdinal_eq he with ⟨t, ht, i, rfl, _⟩
    exact (hkept t ht).1.withOrdinal i
  · rcases exists_withOrdinal_eq he with ⟨t, ht, i, rfl, _⟩
    rw [isScalar_withOrdinal] at hscalar
    rcases (hkept t ht).2 hscalar with ⟨word, hword, hname⟩
    exact ⟨_, hword.isToken_ordinalName i, by rw [name_withOrdinal, hname, ordinalName_append]⟩
  · rw [map_digest_disambiguate]
    exact nodup_dropRepeated _

end Arranging

end TypeTree

namespace Inference

open TypeTree Naming

theorem childName_mapping (parent : String) (entries : List (Value × Value)) :
    Naming.childName parent (.element (.mapping entries)) = parent ++ "Dict" := by
  have hcamel : upperCamel "dict" = "Dict" := by decide
  have hsuffix : (ChildKey.element (.mapping entries)).suffix =
      if (upperCamel "dict").isEmpty then "Element" else upperCamel "dict" := rfl
  rw [Naming.childName, hsuffix, hcamel]
  rfl

/-- What is inferred from an element is a scalar, or it is named by a word. -/
theorem isNamedByWord_of_child {run : Inference} {parent : String} {item : Value} {t : TypeTree}
    (h : run.child parent (.element item) item = .ok t) : IsNamedByWord parent t := by
  intro hscalar
  have hnode := (child_eq_ok_iff.mp h).1
  rw [name_of_node hnode]
  rcases isNode_of_node hnode with _ | @⟨kind, items, _, _, _, _, _, _⟩ | @⟨entries, _, _, _⟩
  · contradiction
  · exact ⟨kind.word, kind.isStem_word, SequenceKind.childName_sequence parent kind items⟩
  · exact ⟨"Dict", by decide, childName_mapping parent entries⟩

/-- Inferred trees of nested sequences of rows are tabular. -/
theorem isTabular_of_node {run : Inference} {name : String} {v : Value} {t : TypeTree}
    (hstyle : run.strategies.dictStyle = .typedDict)
    (hrules : ∀ kind rule elementKind, kind ≠ .tuple →
      run.registry.get? (.sequence kind) = some (.container rule) →
      rule.elementKind? run.strategies.tupleSize kind = some elementKind →
      elementKind ≠ .tuple .fixed)
    (hv : v.IsTabular run.registry) (h : run.node name v = .ok t) : IsTabular run.strategies t := by
  refine node_induct (P := fun _ v t => v.IsTabular run.registry → IsTabular run.strategies t)
    ?_ ?_ ?_ v name t h hv
  · exact fun name v type _ _ => IsTabular.scalar name v type
  · intro name kind items rule elementKind trees hget hkind hchildren htabular hv
    rcases hv with _ | ⟨hne, hitems⟩ | _
    refine isTabular_arrange (hrules kind rule elementKind hne hget hkind) (fun t ht => ?_) _
    -- Each tree has its item beside it, with what is known of both.
    have hboth := hchildren.mp (fun _ _ h h' => And.intro h h') htabular
    have hall := (List.forall₂_and_left _ _).mpr ⟨hitems, hboth⟩
    rcases exists_mem_left_of_forall₂ hall ht with ⟨item, _, hitem, hchild, htree⟩
    exact ⟨htree hitem, isNamedByWord_of_child hchild⟩
  · intro name entries children _ hfields _ hv
    rcases hv with _ | _ | ⟨hkeys, hvalues⟩
    have hform : ∃ profile, mappingForm run.strategies entries = .record profile :=
      ⟨_, if_pos ⟨hstyle, hkeys⟩⟩
    rcases hform with ⟨profile, hform⟩
    rw [hform]
    refine IsTabular.record fun f hf => ?_
    -- A field has been inferred from an entry, and its value is an atom.
    rcases (mem_distinctFields hf).2 with ⟨child, hchild, heq⟩
    rcases exists_mem_left_of_forall₂ hfields hchild with ⟨entry, hentry, hfield⟩
    rcases hvalues entry.1 (List.fst_mem_of_mem_zipIdx hentry) with ⟨a, type, hvalue, hget⟩
    rw [← heq]
    have hnode := (child_eq_ok_iff.mp hfield.2).1
    rw [hvalue, node_of_isNode (.scalar hget), Except.ok.injEq] at hnode
    rw [← hnode]
    rfl

end Inference

end TypeSketch
