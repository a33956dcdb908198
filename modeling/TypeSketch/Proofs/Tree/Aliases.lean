import TypeSketch.Proofs.Tree.Tabular

/-!
# Names of Siblings

What the names of the elements of one sequence say. Every element is called after its parent
and the name of its type, so elements that get a declaration, which are sequences and
mappings, have one name to begin with if and only if their types are called the same. Then
they are numbered by digest. No number makes one of these names another one, since none of
the words ends in a digit, so in the end the name of an element stands for the type of its
example and for its digest.

Numbering comes last, and it changes nothing but names: each node of each element keeps its
shape, its height and its example, and the kept shapes are still those that the children
give.

## Main definitions

* `TypeTree.unnumbered`: The elements before they are numbered.
* `TypeTree.IsNamedAfter`: An element that is called after its parent and its type.
* `TypeTree.IsNumberedAmong`: What becomes of an element among its siblings.

## Theorems

* `Value.typeName_eq_of_childName_append_eq`: A name says which type an element has.
* `TypeTree.forall₂_isSameNode_rename`: What a renamed tree keeps.
* `TypeTree.isNumberedAmong_arrange`: The number of each element.
* `TypeTree.IsNumberedAmong.name_eq_iff`: What the names of two elements say.
* `Inference.names_of_elements`: What the names of the elements of a sequence say.
-/

namespace TypeSketch

namespace Value

open Naming

/-- What is appended for a value with parts is a word, and it says which type the value has. -/
theorem exists_word {v : Value} (h : ∀ a, v ≠ .atom a) : ∃ word, IsStem word ∧
    ∀ parent, childName parent (.element v) = parent ++ word := by
  cases v with
  | atom a => exact absurd rfl (h a)
  | sequence kind items =>
    exact ⟨kind.word, kind.isStem_word, fun parent => kind.childName_sequence parent items⟩
  | mapping entries =>
    exact ⟨"Dict", by decide, fun parent => Inference.childName_mapping parent entries⟩

/-- An element is called after the name of its type alone. -/
theorem childName_congr {v w : Value} (h : v.typeName = w.typeName) (parent : String) :
    childName parent (.element v) = childName parent (.element w) := by
  have hsuffix : (ChildKey.element v).suffix = (ChildKey.element w).suffix := by
    rw [ChildKey.suffix, ChildKey.suffix, ChildKey.describe, ChildKey.describe, h]
    rfl
  rw [childName, childName, hsuffix]

/-- The words for values with parts start with different letters, so whatever is behind the word,
    a name says which type an element has. -/
theorem typeName_eq_of_childName_append_eq {v w : Value} {parent x y : String}
    (hv : ∀ a, v ≠ .atom a) (hw : ∀ a, w ≠ .atom a)
    (h : childName parent (.element v) ++ x = childName parent (.element w) ++ y) :
    v.typeName = w.typeName := by
  -- The words for the containers begin with different letters.
  have hwords : ∀ kind kind' : SequenceKind,
      kind.word.toList.head? = kind'.word.toList.head? → kind = kind' := by
    intro kind kind'
    cases kind <;> cases kind' <;> decide
  have hdict : ∀ kind : SequenceKind, kind.word.toList.head? ≠ "Dict".toList.head? := by
    intro kind
    cases kind <;> decide
  have htoken : IsToken "Dict" := by decide
  -- The first letter behind the parent's name tells which word stands there.
  cases v with
  | atom a => exact absurd rfl (hv a)
  | sequence kind items =>
    cases w with
    | atom a => exact absurd rfl (hw a)
    | sequence kind' items' =>
      rw [SequenceKind.childName_sequence, SequenceKind.childName_sequence, String.append_assoc,
        String.append_assoc, String.append_right_inj] at h
      have hhead := kind.isStem_word.1.head?_eq kind'.isStem_word.1 h
      rw [typeName, typeName, Value.kind, Value.kind, hwords kind kind' hhead]
    | mapping entries =>
      rw [SequenceKind.childName_sequence, Inference.childName_mapping, String.append_assoc,
        String.append_assoc, String.append_right_inj] at h
      exact absurd (kind.isStem_word.1.head?_eq htoken h) (hdict kind)
  | mapping entries =>
    cases w with
    | atom a => exact absurd rfl (hw a)
    | sequence kind items =>
      rw [SequenceKind.childName_sequence, Inference.childName_mapping, String.append_assoc,
        String.append_assoc, String.append_right_inj] at h
      exact absurd (htoken.head?_eq kind.isStem_word.1 h).symm (hdict kind)
    | mapping entries' => rfl

end Value

namespace TypeTree

open Naming

/-- The elements of a sequence of this kind before they are numbered. -/
def unnumbered (s : Strategies) (kind : ElementKind) (trees : List TypeTree) : List TypeTree :=
  if kind = .tuple .fixed then trees else mergeSimilar s.similarity (dropRepeated trees)

/-- An element is called after its parent and its type, and it is no atom if it gets a
    declaration. -/
structure IsNamedAfter (s : Strategies) (parent : String) (t : TypeTree) : Prop where
  name_eq : t.name = Naming.childName parent (.element t.exampleValue)
  has_parts : t.isAliased s = true → ∀ a, t.exampleValue ≠ .atom a

/-- A node and what it is under another name. -/
structure IsSameNode (t u : TypeTree) : Prop where
  shape_eq : u.shape = t.shape
  height_eq : u.height = t.height
  exampleValue_eq : u.exampleValue = t.exampleValue
  isAliased_eq : ∀ s, u.isAliased s = t.isAliased s

/-- What numbering makes of an element that is called after its parent: one that gets a
    declaration is called after the place of its digest among those of its name, and the others
    stay as they are. Only names change, at all nodes of the element. -/
structure IsNumberedAmong (s : Strategies) (parent : String) (siblings : List TypeTree)
    (t u : TypeTree) : Prop where
  name_eq : t.name = Naming.childName parent (.element t.exampleValue)
  numbered : t.isAliased s = true → ∃ k, (digestsCalled s siblings t.name)[k]? = some t.digest ∧
    u.name = if k = 0 then t.name else t.name ++ toString (k + 1)
  eq_of_not_isAliased : t.isAliased s = false → u = t
  same_nodes : List.Forall₂ IsSameNode t.nodes u.nodes
  coherent : Coherent s u

variable {s : Strategies} {parent : String} {trees : List TypeTree} {t u : TypeTree}

theorem arrange_eq (s : Strategies) (kind : ElementKind) (trees : List TypeTree) :
    arrange s kind trees = disambiguate s (unnumbered s kind trees) := by
  rw [unnumbered]
  split
  · next hkind =>
    rw [hkind]
    rfl
  · next hkind => exact arrange_of_ne_fixed hkind

section Renaming

theorem IsSameNode.refl (t : TypeTree) : IsSameNode t t := ⟨rfl, rfl, rfl, fun _ => rfl⟩

theorem isSameNode_rename (newName : String) (t : TypeTree) : IsSameNode t (t.rename newName) :=
  ⟨shape_rename newName t, height_rename newName t, by cases t <;> rfl,
    fun s => isAliased_rename s newName t⟩

theorem IsSameNode.digest_eq (h : IsSameNode t u) : u.digest = t.digest :=
  congrArg Shape.digest h.shape_eq

/-- A renamed tree has the same nodes in the same places. -/
theorem forall₂_isSameNode_rename (newName : String) (t : TypeTree) :
    List.Forall₂ IsSameNode t.nodes (t.rename newName).nodes := by
  induction t using induct_children generalizing newName with
  | node t ih =>
    rw [nodes, nodes, descendants_eq_flatMap, descendants_eq_flatMap, children_rename,
      List.flatMap_map]
    refine List.Forall₂.cons (isSameNode_rename newName t) (forall₂_flatMap fun c hc => ?_)
    rcases followRename_cases t.name newName c with heq | ⟨suffix, _, heq⟩
    · rw [heq]
      exact List.forall₂_same.mpr fun u _ => IsSameNode.refl u
    · rw [heq]
      exact ih c hc _

theorem forall₂_isSameNode_withOrdinal (t : TypeTree) (i : Nat) :
    List.Forall₂ IsSameNode t.nodes (t.withOrdinal i).nodes := by
  unfold withOrdinal
  split
  · exact List.forall₂_same.mpr fun u _ => IsSameNode.refl u
  · exact forall₂_isSameNode_rename _ t

end Renaming

section Numbering

/-- What an element is called after does not get lost when similar elements are merged. -/
theorem isNamedAfter_unnumbered (kind : ElementKind) (h : ∀ t ∈ trees, IsNamedAfter s parent t) :
    ∀ t ∈ unnumbered s kind trees, IsNamedAfter s parent t := by
  unfold unnumbered
  split
  · exact h
  · refine forall_mem_mergeSimilar ?_ fun t ht => h t (mem_of_mem_dropSeen ht)
    -- A merge has the name and the example of its first record.
    intro a b m ha _ hm
    cases hm
    exact ⟨ha.name_eq, fun _ => ha.has_parts rfl⟩

theorem coherent_unnumbered (kind : ElementKind) (h : ∀ t ∈ trees, Coherent s t) :
    ∀ t ∈ unnumbered s kind trees, Coherent s t := by
  unfold unnumbered
  split
  · exact h
  · exact forall_mem_mergeSimilar (fun _ _ _ ha hb hm => hm.coherent ha hb) fun t ht =>
      h t (mem_of_mem_dropSeen ht)

/-- The number of an element is the place of its digest among those that are called so. -/
theorem IsNumberedBy.isNumberedAmong {siblings : List TypeTree} (ht : t ∈ siblings)
    (hnamed : IsNamedAfter s parent t) (hcoherent : Coherent s t)
    (h : IsNumberedBy s (digestsCalled s siblings) t u) : IsNumberedAmong s parent siblings t u := by
  rw [IsNumberedBy] at h
  split at h
  · next haliased =>
    refine ⟨hnamed.name_eq, fun _ => ⟨(digestsCalled s siblings t.name).idxOf t.digest, ?_, ?_⟩,
      fun hnot => ?_, ?_, ?_⟩
    -- The number is the place of the digest among those that have been called by this name.
    · have hmem := mem_digestsCalled.mpr ⟨t, ht, haliased, rfl, rfl⟩
      rw [List.getElem?_eq_getElem (List.idxOf_lt_length_of_mem hmem), List.getElem_idxOf]
    · rw [h, name_withOrdinal, ordinalName]
    · rw [haliased] at hnot
      contradiction
    · rw [h]
      exact forall₂_isSameNode_withOrdinal t _
    · rw [h]
      -- A number goes to all but the first one, and it is a new name.
      unfold withOrdinal
      split
      · exact hcoherent
      · exact hcoherent.rename _
  · next hnot =>
    rw [h]
    refine ⟨hnamed.name_eq, fun haliased => absurd haliased hnot, fun _ => rfl, ?_, hcoherent⟩
    exact List.forall₂_same.mpr fun u _ => IsSameNode.refl u

theorem isNumberedAmong_arrange (kind : ElementKind)
    (hnamed : ∀ t ∈ trees, IsNamedAfter s parent t) (hcoherent : ∀ t ∈ trees, Coherent s t) :
    List.Forall₂ (IsNumberedAmong s parent (unnumbered s kind trees)) (unnumbered s kind trees)
      (arrange s kind trees) := by
  have hall := (List.forall₂_and_left _ _).mpr
    ⟨fun t (ht : t ∈ unnumbered s kind trees) => ht, forall₂_isNumberedBy s _⟩
  rw [arrange_eq]
  refine hall.imp fun t u ⟨ht, hnumbered⟩ => ?_
  exact hnumbered.isNumberedAmong ht (isNamedAfter_unnumbered kind hnamed t ht)
    (coherent_unnumbered kind hcoherent t ht)

section Among

variable {siblings : List TypeTree} {t' u' : TypeTree}

theorem IsNumberedAmong.isSameNode (h : IsNumberedAmong s parent siblings t u) : IsSameNode t u := by
  have hnodes := h.same_nodes
  rw [nodes, nodes] at hnodes
  cases hnodes with
  | cons hroot _ => exact hroot

/-- The names of two elements with a declaration are the same if and only if the elements are of
    one type and of one digest. -/
theorem IsNumberedAmong.name_eq_iff (h : IsNumberedAmong s parent siblings t u)
    (h' : IsNumberedAmong s parent siblings t' u') (hparts : ∀ a, t.exampleValue ≠ .atom a)
    (hparts' : ∀ a, t'.exampleValue ≠ .atom a) (haliased : t.isAliased s = true)
    (haliased' : t'.isAliased s = true) :
    u.name = u'.name ↔
      u.exampleValue.typeName = u'.exampleValue.typeName ∧ u.digest = u'.digest := by
  rcases h.numbered haliased with ⟨k, hplace, hname⟩
  rcases h'.numbered haliased' with ⟨k', hplace', hname'⟩
  rw [← ordinalName] at hname hname'
  rw [hname, hname', h.isSameNode.exampleValue_eq, h'.isSameNode.exampleValue_eq,
    h.isSameNode.digest_eq, h'.isSameNode.digest_eq]
  constructor
  · intro heq
    -- No word ends in a digit, so the word and the number can be read.
    rcases Value.exists_word hparts with ⟨word, hword, hold⟩
    rcases Value.exists_word hparts' with ⟨word', hword', hold'⟩
    rw [h.name_eq, h'.name_eq, hold, hold', ordinalName_append, ordinalName_append,
      String.append_right_inj] at heq
    rcases hword.ordinalName_inj hword' heq with ⟨hwords, hnumbers⟩
    have hnames : t.name = t'.name := by rw [h.name_eq, h'.name_eq, hold, hold', hwords]
    have hchild : Naming.childName parent (.element t.exampleValue) ++ "" =
        Naming.childName parent (.element t'.exampleValue) ++ "" := by
      rw [← h.name_eq, ← h'.name_eq, hnames]
    refine ⟨Value.typeName_eq_of_childName_append_eq hparts hparts' hchild, ?_⟩
    rw [hnames, hnumbers, hplace'] at hplace
    exact (Option.some.inj hplace).symm
  · rintro ⟨htype, hdigest⟩
    have hnames : t.name = t'.name := by rw [h.name_eq, h'.name_eq, Value.childName_congr htype]
    -- A digest has one place only among those of a name.
    have hnumbers : k = k' := by
      have hlt := (List.getElem?_eq_some_iff.mp hplace).1
      refine (List.getElem?_inj hlt (nodup_digestsCalled s siblings t.name)).mp ?_
      rw [hplace, hdigest, hnames, hplace']
    rw [hnames, hnumbers]

end Among

end Numbering

end TypeTree

namespace Inference

open TypeTree

variable {run : Inference} {parent : String}

theorem isNamedAfter_of_child {item : Value} {t : TypeTree}
    (h : run.child parent (.element item) item = .ok t) : IsNamedAfter run.strategies parent t := by
  have hnode := (child_eq_ok_iff.mp h).1
  have hname := name_of_node hnode
  rcases isNode_of_node hnode with _ | _ | _
  · exact ⟨hname, fun haliased => absurd haliased Bool.false_ne_true⟩
  · exact ⟨hname, fun _ _ => Value.noConfusion⟩
  · exact ⟨hname, fun _ _ => Value.noConfusion⟩

/-- The elements of a sequence, whatever becomes of repeated digests. The names of two that get a
    declaration are the same if and only if the elements are of one type and of one digest. The
    first digest of a name keeps it, and each further one has its place behind the name. Shapes,
    heights and places are those from before. -/
theorem names_of_elements (run : Inference) (parent : String) (kind : ElementKind)
    (items : List Value) (trees : List TypeTree) (h : elementNodes run parent items = .ok trees) :
    (∀ u ∈ arrange run.strategies kind trees, ∀ w ∈ arrange run.strategies kind trees,
      u.isAliased run.strategies = true → w.isAliased run.strategies = true →
      (u.name = w.name ↔
        u.exampleValue.typeName = w.exampleValue.typeName ∧ u.digest = w.digest)) ∧
    List.Forall₂ (IsNumberedAmong run.strategies parent (unnumbered run.strategies kind trees))
      (unnumbered run.strategies kind trees) (arrange run.strategies kind trees) ∧
    (kind ≠ .tuple .fixed → ((arrange run.strategies kind trees).map digest).Nodup) := by
  have hchildren := elementNodes_eq_ok_iff.mp h
  have hnamed : ∀ t ∈ trees, IsNamedAfter run.strategies parent t := by
    intro t ht
    rcases exists_mem_left_of_forall₂ hchildren ht with ⟨item, _, hchild⟩
    exact isNamedAfter_of_child hchild
  have hnumbered := isNumberedAmong_arrange kind hnamed (coherent_of_children hchildren)
  have hkept := isNamedAfter_unnumbered kind hnamed
  -- Numbering keeps what a node is, so each element is compared by the one that it was.
  refine ⟨fun u hu w hw hua hwa => ?_, hnumbered, fun hkind => ?_⟩
  · rcases exists_mem_left_of_forall₂ hnumbered hu with ⟨t, ht, htu⟩
    rcases exists_mem_left_of_forall₂ hnumbered hw with ⟨t', ht', htw⟩
    rw [htu.isSameNode.isAliased_eq] at hua
    rw [htw.isSameNode.isAliased_eq] at hwa
    exact htu.name_eq_iff htw ((hkept t ht).has_parts hua) ((hkept t' ht').has_parts hwa) hua hwa
  · rw [arrange_eq, map_digest_disambiguate, unnumbered, if_neg hkind]
    exact nodup_dropRepeated _

/-- Two records of three have one digest, and so one name, or one of them is dropped. -/
theorem names_of_elements_rows :
    ∃ trees, elementNodes {} "P" [.mapping [(.str "a", .int 1)], .mapping [(.str "b", .int 1)],
        .mapping [(.str "a", .int 2)]] = .ok trees ∧
      (arrange {} (.tuple .fixed) trees).map name = ["PDict", "PDict2", "PDict"] ∧
      (arrange {} .list trees).map name = ["PDict", "PDict2"] ∧
      ((arrange {} .list trees).map digest).Nodup := by
  refine ⟨_, rfl, by decide +kernel, by decide +kernel, ?_⟩
  exact (names_of_elements {} "P" .list [.mapping [(.str "a", .int 1)],
    .mapping [(.str "b", .int 1)], .mapping [(.str "a", .int 2)]] _ rfl).2.2 (by decide)

end Inference

end TypeSketch
