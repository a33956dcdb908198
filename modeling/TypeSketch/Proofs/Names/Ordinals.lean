import TypeSketch.Proofs.Names.CamelCase
import TypeSketch.Proofs.Names.Positions
import TypeSketch.Proofs.Render.Conflicts
import TypeSketch.Proofs.Tree.Aliases

/-!
# Names with Numbers

Whether an element with a number behind its name is called like a node below another element
of its sequence. Numbers are given by what the elements themselves are called, and nothing
that is below them is looked at. The names there go on from the names of the elements.

A number adds digits to a name. No word for a type has a digit, and neither starts what a
position adds with one. So a name that goes on with digits only belongs to a node that mappings
alone lead down to, and the digits are what camel case leaves of their keys. A key may well be
a number, and then the two names can be the same. The first of the elements `{"2": {"x": 1}}`
and `{"b": 1}` of a list `E`, for example, has a part that is called `EDict2` after its key,
and the second one is called `EDict2` because it is the second.

In an example in which keys are repeated, a field can have the key of one entry and the name of
another one. But such keys are written alike in camel case: only zeros with different signs
are one key and two texts.

## Main definitions

* `TypeTree.NamesChildren`: How the children of a node are called.
* `TypeTree.KeyPath`: The keys on a way down that leads through mappings only.
* `Naming.spelled`: What camel case leaves of some keys.

## Theorems

* `Value.upperCamel_keyText_of_same`: Keys that are one.
* `TypeTree.KeyPath.name_eq`: Names on such a way.
* `TypeTree.exists_keyPath_iff`: Which names go on with digits.
* `Inference.name_eq_iff_of_below`: When an element is called like a node below another one.
-/

namespace TypeSketch

namespace Naming

/-- What camel case leaves of some keys, one after another. -/
def spelled (keys : List Value) : String := String.join (keys.map fun key => upperCamel key.keyText)

/-- A name that is made from a key depends on what camel case leaves of it. -/
theorem childName_field_congr {key other : Value}
    (h : upperCamel key.keyText = upperCamel other.keyText) (parent : String) (i : Nat) :
    childName parent (.field key i) = childName parent (.field other i) := by
  have hsuffix : (ChildKey.field key i).suffix = (ChildKey.field other i).suffix := by
    rw [ChildKey.suffix, ChildKey.suffix, ChildKey.describe, ChildKey.describe, h]
    rfl
  rw [childName, childName, hsuffix]

end Naming

section Keys

open Naming

/-- Numbers that are one as keys differ in their sign at most, and camel case drops the sign. -/
theorem Binary64.upperCamel_text_of_sameNumber {x y : Binary64} (h : x.sameNumber y = true) :
    upperCamel x.text = upperCamel y.text := by
  -- The sign of zero is written and dropped again by camel case.
  have hzero : ∀ x : Binary64, x.isZero = true → upperCamel x.text = upperCamel "0" := by
    intro x hx
    have hexponent : x.biasedExponent = 0 := by
      rw [isZero, Bool.and_eq_true, decide_eq_true_eq] at hx
      exact hx.1
    have hnan : x.isNaN = false := by simp [isNaN, hexponent]
    have hfinite : x.isInfinite = false := by simp [isInfinite, hexponent]
    have hsigns : upperCamel ("-" ++ "0") = upperCamel "0" := by decide
    simp only [text, hnan, hfinite, hx, Bool.false_eq_true, if_false, if_true]
    split
    · exact hsigns
    · rfl
  simp only [sameNumber, Bool.or_eq_true, Bool.and_eq_true, decide_eq_true_eq] at h
  rcases h with (hbits | ⟨hx, hy⟩) | ⟨hx, hy⟩
  · rcases x with ⟨bits⟩
    rw [show bits = y.bits from hbits]
  · simp only [text, hx, hy, if_true]
  · rw [hzero x hx, hzero y hy]

theorem Atom.upperCamel_keyText_of_same {a b : Atom} (h : a.same b = true) :
    upperCamel a.keyText = upperCamel b.keyText := by
  unfold Atom.same at h
  split at h
  · exact Binary64.upperCamel_text_of_sameNumber h
  · rw [of_decide_eq_true h]

/-- Keys that are one are written alike in camel case. -/
theorem Value.upperCamel_keyText_of_same {v w : Value} (h : v.same w = true) :
    upperCamel v.keyText = upperCamel w.keyText := by
  -- Camel case goes through texts part by part, so equal parts are enough at every depth.
  induction v generalizing w with
  | atom a =>
    -- Equal values are of one kind, so the other combinations do not occur.
    cases w with
    | atom b =>
      rw [same] at h
      rw [keyText, keyText]
      exact Atom.upperCamel_keyText_of_same h
    | sequence kind items => simp [same] at h
    | mapping entries => simp [same] at h
  | sequence kind items ih =>
    cases w with
    | atom a => simp [same] at h
    | sequence kind' others =>
      rw [same, Bool.and_eq_true] at h
      have hitems := (List.forall₂_and_left _ _).mpr ⟨ih, forall₂_of_sameItems h.2⟩
      rw [keyText, keyText, upperCamel_intercalate, upperCamel_intercalate, itemTexts_eq_map,
        itemTexts_eq_map, List.map_map, List.map_map]
      have htexts := map_eq_of_forall₂ (hitems.imp fun _ _ h => (h.1 h.2).symm)
      exact congrArg String.join htexts.symm
    | mapping entries => simp [same] at h
  | mapping entries ih =>
    cases w with
    | atom a => simp [same] at h
    | sequence kind items => simp [same] at h
    | mapping others =>
      rw [same] at h
      have hkeys := (List.forall₂_and_left _ _).mpr ⟨ih, forall₂_of_sameEntries h⟩
      rw [keyText, keyText, upperCamel_intercalate, upperCamel_intercalate, entryTexts_eq_map,
        entryTexts_eq_map, List.map_map, List.map_map]
      have htexts := map_eq_of_forall₂ (hkeys.imp fun _ _ h => (h.1.1 h.2).symm)
      exact congrArg String.join htexts.symm

end Keys

namespace TypeTree

open Naming

/-- A node with parts calls each of its children after itself and the way to it. An element may
    have a number behind that. -/
inductive NamesChildren : TypeTree → Prop
  | scalar (name : String) (v : Value) (type : ScalarType) : NamesChildren (.scalar name v type)
  | mapping {name : String} {v : Value} {form : MappingForm} {height : Nat} {shape : Shape}
    {fields : List (Value × TypeTree)} (has_parts : ∀ a, v ≠ .atom a)
    (names : ∀ f ∈ fields, ∃ i, f.2.name = Naming.childName name (.field f.1 i)) :
    NamesChildren (.mapping name v form height shape fields)
  | sequence {name : String} {v : Value} {kind : ElementKind} {height : Nat} {shape : Shape}
    {elements : List TypeTree} (has_parts : ∀ a, v ≠ .atom a)
    (names : ∀ e ∈ elements, ∃ i,
      e.name = ordinalName (Naming.childName name (.element e.exampleValue)) i) :
    NamesChildren (.sequence name v kind height shape elements)

/-- The keys on the way down to a node, if it leads through mappings only. -/
inductive KeyPath (target : TypeTree) : TypeTree → List Value → Prop
  | nil : KeyPath target target []
  | cons {t : TypeTree} {f : Value × TypeTree} {keys : List Value} (field_mem : f ∈ t.fields)
    (rest : KeyPath target f.2 keys) : KeyPath target t (f.1 :: keys)

variable {s : Strategies} {t c d : TypeTree}

section Children

/-- Nodes keep to this when they are renamed, since their children follow, and when records are
    merged. -/
theorem isNodewise_namesChildren : IsNodewise NamesChildren where
  rename t newName h := by
    cases h with
    | scalar name v type => exact .scalar newName v type
    | mapping has_parts names =>
      rw [TypeTree.rename, renameFields_eq_map]
      refine .mapping has_parts (List.forall_mem_map.mpr fun f hf => ?_)
      rcases names f hf with ⟨i, hname⟩
      rw [followRename_of_name_eq hname, name_rename]
      exact ⟨i, rfl⟩
    -- An element keeps its ordinal, and its example does not change.
    | sequence has_parts names =>
      rw [TypeTree.rename, renameElements_eq_map]
      refine .sequence has_parts (List.forall_mem_map.mpr fun e he => ?_)
      rcases names e he with ⟨i, hname⟩
      rw [Naming.childName, ordinalName_append] at hname
      rw [followRename_of_name_eq hname, name_rename, (isSameNode_rename _ e).exampleValue_eq]
      exact ⟨i, by rw [Naming.childName, ordinalName_append]⟩
  merge similarity a b m hm ha hb := by
    cases hm
    rcases ha with _ | ⟨has_parts, names⟩
    rcases hb with _ | ⟨_, names'⟩
    -- A field that is taken from the second record is renamed after the first one, so the two need
    -- no common name.
    refine .mapping has_parts (forall_field_mergeFields names fun g hg => ?_)
    rcases names' g hg with ⟨i, hname⟩
    rw [adopt_eq_followRename, followRename_of_name_eq hname, name_rename]
    exact ⟨i, rfl⟩

/-- A field with a key that leaves something in camel case is called after that. -/
theorem NamesChildren.name_field (h : NamesChildren t) {f : Value × TypeTree} (hf : f ∈ t.fields)
    (hkey : upperCamel f.1.keyText ≠ "") : f.2.name = t.name ++ upperCamel f.1.keyText := by
  cases h with
  | scalar name v type => exact absurd hf List.not_mem_nil
  | mapping _ names =>
    rcases names f hf with ⟨i, hname⟩
    have hsuffix : (ChildKey.field f.1 i).suffix = upperCamel f.1.keyText := by
      rw [ChildKey.suffix, ChildKey.describe, if_neg (by rwa [String.isEmpty_iff])]
    rw [hname, Naming.childName, hsuffix]
    rfl
  | sequence _ _ => exact absurd hf List.not_mem_nil

/-- Only a node with parts has a node below it or gets a declaration. -/
theorem NamesChildren.has_parts_of_mem_nodes (h : NamesChildren t) (hd : d ∈ t.nodes)
    (haliased : d.isAliased s = true) : ∀ a, t.exampleValue ≠ .atom a := by
  cases h with
  | scalar name v type =>
    rw [List.mem_singleton.mp hd] at haliased
    contradiction
  | mapping has_parts _ => exact has_parts
  | sequence has_parts _ => exact has_parts

end Children

section Digits

theorem isDigit_of_mem_ordinalName {i : Nat} {x : Char} (hx : x ∈ (ordinalName "" i).toList) :
    x.isDigit = true := by
  rcases exists_ordinalName_eq i with ⟨digits, hdigits, hordinal, _⟩
  rw [hordinal, String.empty_append] at hx
  exact hdigits x hx

/-- A text that goes on from a capital letter does not consist of digits. -/
theorem not_forall_isDigit_of_isToken {word more : String} (hword : IsToken word) :
    ¬∀ c ∈ (word ++ more).toList, c.isDigit = true := by
  rcases hword with ⟨c, rest, hchars, hc, _⟩
  intro hdigits
  have hfirst : c ∈ (word ++ more).toList := by simp [hchars]
  exact not_isCapital_of_isDigit (hdigits c hfirst) hc

/-- What the name of a child has behind that of its parent. It consists of digits only if the child
    is a field whose key leaves them in camel case. -/
theorem NamesChildren.exists_name_child (h : NamesChildren t) (hc : c ∈ t.children)
    (hparts : ∀ a, c.exampleValue ≠ .atom a) :
    ∃ suffix, c.name = t.name ++ suffix ∧ ((∀ x ∈ suffix.toList, x.isDigit = true) →
      ∃ f ∈ t.fields, f.2 = c ∧ upperCamel f.1.keyText ≠ "") := by
  cases h with
  | scalar name v type => exact absurd hc List.not_mem_nil
  | mapping _ names =>
    rcases List.mem_map.mp hc with ⟨f, hf, rfl⟩
    rcases names f hf with ⟨i, hname⟩
    refine ⟨_, hname, fun hdigits => ⟨f, hf, rfl, fun hempty => ?_⟩⟩
    -- A key that leaves nothing is replaced by a word and its position.
    have hword : IsToken "Field" := by decide
    rw [ChildKey.suffix_of_unnamed hempty] at hdigits
    exact not_forall_isDigit_of_isToken hword hdigits
  | sequence _ names =>
    rcases names c hc with ⟨i, hname⟩
    rcases Value.exists_word hparts with ⟨word, hword, hold⟩
    rcases exists_ordinalName_eq i with ⟨digits, _, hordinal, _⟩
    -- An element adds a word and its number, and the word comes first.
    rw [hold, hordinal, String.append_assoc] at hname
    exact ⟨_, hname, fun hdigits => absurd hdigits (not_forall_isDigit_of_isToken hword.1)⟩

/-- What the name of a node has behind that of a node above it. It consists of digits only if
    mappings lead down to the node, by keys that leave something in camel case. -/
theorem exists_name_eq (hnames : ∀ u ∈ t.nodes, NamesChildren u) (hd : d ∈ t.nodes)
    (haliased : d.isAliased s = true) :
    ∃ rest, d.name = t.name ++ rest ∧ ((∀ x ∈ rest.toList, x.isDigit = true) →
      ∃ keys, KeyPath d t keys ∧ ∀ key ∈ keys, upperCamel key.keyText ≠ "") := by
  induction t using induct_children with
  | node t ih =>
    rcases mem_nodes.mp hd with rfl | hd
    · exact ⟨"", by rw [String.append_empty], fun _ => ⟨[], .nil, List.forall_mem_nil _⟩⟩
    · rcases mem_descendants.mp hd with ⟨c, hc, hd⟩
      have hbelow := forall_nodes_child hnames hc
      have hparts := (hbelow c (mem_nodes_self c)).has_parts_of_mem_nodes hd haliased
      rcases (hnames t (mem_nodes_self t)).exists_name_child hc hparts with ⟨suffix, hname, hfield⟩
      rcases ih c hc hbelow hd with ⟨rest, hrest, hkeys⟩
      -- If all of it is digits, so is what the child adds, and what comes behind that.
      refine ⟨suffix ++ rest, by rw [hrest, hname, String.append_assoc], fun hdigits => ?_⟩
      simp only [String.toList_append, List.mem_append, or_imp, forall_and] at hdigits
      rcases hfield hdigits.1 with ⟨f, hf, rfl, hkey⟩
      rcases hkeys hdigits.2 with ⟨keys, hpath, hall⟩
      exact ⟨f.1 :: keys, .cons hf hpath, List.forall_mem_cons.mpr ⟨hkey, hall⟩⟩

/-- On such a way the name takes up what is left of the keys, one after another. -/
theorem KeyPath.name_eq {keys : List Value} (h : KeyPath d t keys)
    (hnames : ∀ u ∈ t.nodes, NamesChildren u) (hkeys : ∀ key ∈ keys, upperCamel key.keyText ≠ "") :
    d.name = t.name ++ spelled keys := by
  induction h with
  | nil => rw [spelled, List.map_nil, String.join_nil, String.append_empty]
  | @cons t f keys hf _ ih =>
    rw [List.forall_mem_cons] at hkeys
    have hchild : f.2 ∈ t.children := by
      cases t with
      | mapping name v form height shape fields => exact List.mem_map_of_mem hf
      | _ => exact absurd hf List.not_mem_nil
    rw [ih (forall_nodes_child hnames hchild) hkeys.2,
      (hnames t (mem_nodes_self t)).name_field hf hkeys.1, spelled, spelled, List.map_cons,
      String.join_cons, String.append_assoc]

/-- The name of a node goes on with the end of a number if and only if keys on the way down to the
    node spell it. -/
theorem exists_keyPath_iff (hnames : ∀ u ∈ t.nodes, NamesChildren u) (hd : d ∈ t.nodes)
    (haliased : d.isAliased s = true) {i : Nat} {start : String} :
    (∃ rest, d.name = t.name ++ rest ∧ ordinalName "" i = start ++ rest) ↔
      ∃ keys, KeyPath d t keys ∧ (∀ key ∈ keys, upperCamel key.keyText ≠ "") ∧
        ordinalName "" i = start ++ spelled keys := by
  constructor
  · rintro ⟨rest, hrest, hnumber⟩
    -- A number has nothing but digits, so the name of the node goes on with digits.
    have hdigits : ∀ x ∈ rest.toList, x.isDigit = true := by
      intro x hx
      refine isDigit_of_mem_ordinalName (i := i) ?_
      rw [hnumber, String.toList_append]
      exact List.mem_append_right _ hx
    rcases exists_name_eq hnames hd haliased with ⟨rest', hrest', hkeys⟩
    rw [hrest, String.append_right_inj] at hrest'
    rw [← hrest'] at hkeys
    rcases hkeys hdigits with ⟨keys, hpath, hall⟩
    have hspelled := hpath.name_eq hnames hall
    rw [hrest, String.append_right_inj] at hspelled
    exact ⟨keys, hpath, hall, by rw [hnumber, hspelled]⟩
  · rintro ⟨keys, hpath, hkeys, hnumber⟩
    exact ⟨spelled keys, hpath.name_eq hnames hkeys, hnumber⟩

end Digits

end TypeTree

namespace Inference

open TypeTree Naming

variable {run : Inference} {name : String}

theorem namesChildren_of_isNode {v : Value} {t : TypeTree} (h : run.IsNode name v t) :
    NamesChildren t := by
  rcases h with ⟨_⟩ | @⟨kind, items, _, elementKind, trees, _, _, hchildren⟩ |
    @⟨entries, children, _, hfields⟩
  · exact .scalar _ _ _
  · refine .sequence (fun _ => Value.noConfusion) fun e he => ?_
    have hnamed : ∀ t ∈ trees, IsNamedAfter run.strategies name t := by
      intro t ht
      rcases exists_mem_left_of_forall₂ hchildren ht with ⟨item, _, hchild⟩
      exact isNamedAfter_of_child hchild
    have hnumbered := isNumberedAmong_arrange elementKind hnamed (coherent_of_children hchildren)
    rcases exists_mem_left_of_forall₂ hnumbered he with ⟨t, _, hte⟩
    rw [hte.isSameNode.exampleValue_eq, ← hte.name_eq]
    -- What gets no declaration has not been numbered, and its name is that of the first.
    by_cases haliased : t.isAliased run.strategies = true
    · rcases hte.numbered haliased with ⟨i, _, hname⟩
      exact ⟨i, hname⟩
    · rw [Bool.not_eq_true] at haliased
      exact ⟨0, by rw [hte.eq_of_not_isAliased haliased, ordinalName, if_pos rfl]⟩
  · refine .mapping (fun _ => Value.noConfusion) fun f hf => ?_
    -- If a key is repeated, the field has the first of the keys and the name of the last entry.
    rcases exists_same_of_mem_distinctFields hf with ⟨c, hc, htree, hkeys⟩
    rcases exists_mem_left_of_forall₂ hfields hc with ⟨⟨e, i⟩, _, hkey, hchild⟩
    have hcamel : upperCamel f.1.keyText = upperCamel e.1.keyText := by
      rw [← hkey]
      rcases hkeys with heq | hsame
      · rw [heq]
      · exact Value.upperCamel_keyText_of_same hsame
    refine ⟨i, ?_⟩
    rw [← htree, name_of_node (child_eq_ok_iff.mp hchild).1]
    exact (childName_field_congr hcamel name i).symm

/-- The elements of a sequence have their numbers behind the names that they are given first. Take
    two of them, and a node below the second one: the first element has the name of that node if
    and only if the elements are of one type, mappings alone lead down to the node, and what is
    left of the keys on the way spells what the first number has behind the second one. -/
theorem name_eq_iff_of_below {v w : Value} {tree : TypeTree} {parent : String} {kind : ElementKind}
    {height : Nat} {shape : Shape} {elements : List TypeTree} (h : run.infer name v = .ok tree)
    (hmem : .sequence parent w kind height shape elements ∈ tree.nodes) :
    (∀ e ∈ elements, ∃ i, e.name = ordinalName (childName parent (.element e.exampleValue)) i) ∧
    ∀ t ∈ elements, ∀ u ∈ elements, ∀ d ∈ u.descendants,
      t.isAliased run.strategies = true → d.isAliased run.strategies = true →
      ∀ i j, t.name = ordinalName (childName parent (.element t.exampleValue)) i →
        u.name = ordinalName (childName parent (.element u.exampleValue)) j →
        (t.name = d.name ↔ t.exampleValue.typeName = u.exampleValue.typeName ∧
          ∃ keys, KeyPath d u keys ∧ (∀ key ∈ keys, upperCamel key.keyText ≠ "") ∧
            ordinalName "" i = ordinalName "" j ++ spelled keys) := by
  have hall : ∀ u ∈ tree.nodes, NamesChildren u :=
    forall_nodes_of_node isNodewise_namesChildren
      (fun _ _ _ _ hnode => namesChildren_of_isNode hnode) (infer_eq_ok_iff.mp h).2
  rcases hall _ hmem with _ | _ | ⟨_, hordinals⟩
  refine ⟨hordinals, fun t ht u hu d hd hta hda i j hi hj => ?_⟩
  have hnodes : ∀ {c}, c ∈ elements → ∀ x ∈ c.nodes, NamesChildren x := fun hc x hx =>
    hall x (mem_nodes_trans hmem (mem_nodes_of_child hc hx))
  have hbelow : d ∈ u.nodes := mem_nodes.mpr (Or.inr hd)
  have htparts := (hnodes ht t (mem_nodes_self t)).has_parts_of_mem_nodes (mem_nodes_self t) hta
  have huparts := (hnodes hu u (mem_nodes_self u)).has_parts_of_mem_nodes hbelow hda
  -- The numbers apart from the names.
  have hsplit : ∀ name k, ordinalName name k = name ++ ordinalName "" k := by
    intro name k
    rw [← ordinalName_append, String.append_empty]
  rw [hsplit] at hi hj
  rw [← exists_keyPath_iff (hnodes hu) hbelow hda]
  constructor
  · intro heq
    rcases exists_name_eq (hnodes hu) hbelow hda with ⟨rest, hrest, _⟩
    rw [hi, hrest, hj, String.append_assoc] at heq
    -- The word for the type comes first in both names, and the rest can be compared then.
    have htypes := Value.typeName_eq_of_childName_append_eq htparts huparts heq
    rw [Value.childName_congr htypes, String.append_right_inj] at heq
    exact ⟨htypes, rest, hrest, heq⟩
  · rintro ⟨htypes, rest, hrest, hnumber⟩
    rw [hi, hrest, hj, Value.childName_congr htypes, hnumber, String.append_assoc]

section Rows

/-- A list of two dicts, with a dict under a key of the first one. -/
def nestedRows (key : String) : Value :=
  .sequence .list
    [.mapping [(.str key, .mapping [(.str "x", .int 1)])], .mapping [(.str "b", .int 1)]]

/-- The second dict has a number, and a key that is a word does not spell it. -/
theorem name_eq_iff_of_below_rows :
    ∃ v height shape elements,
      Inference.infer {} "E" (nestedRows "k") = .ok (.sequence "E" v .list height shape elements) ∧
      ∃ t ∈ elements, t.name = "EDict2" ∧ ∃ u ∈ elements, u.fields.map (·.1.keyText) = ["k"] ∧
        ∀ d ∈ u.descendants, d.isAliased {} = true → t.name ≠ d.name := by
  obtain ⟨v, height, shape, elements, htree, hfound⟩ : ∃ v height shape elements,
      Inference.infer {} "E" (nestedRows "k") = .ok (.sequence "E" v .list height shape elements) ∧
      (elements.any fun t => elements.any fun u =>
        t.name = "EDict2" && u.name = "EDict" && u.fields.map (·.1.keyText) = ["k"] &&
          t.isAliased {} && t.name = ordinalName (childName "E" (.element t.exampleValue)) 1 &&
          u.name = ordinalName (childName "E" (.element u.exampleValue)) 0) = true :=
    ⟨_, _, _, _, infer_eq_ok_iff.mpr ⟨by decide +kernel, rfl⟩, by decide +kernel⟩
  simp only [List.any_eq_true, Bool.and_eq_true, decide_eq_true_eq] at hfound
  rcases hfound with ⟨t, ht, u, hu, ⟨⟨⟨⟨htname, huname⟩, hfields⟩, hta⟩, hti⟩, huj⟩
  -- An equal name below would have the key on its way spelled as a number.
  refine ⟨v, height, shape, elements, htree, t, ht, htname, u, hu, hfields, fun d hd hda heq => ?_⟩
  have hiff := (name_eq_iff_of_below htree (mem_nodes_self _)).2 t ht u hu d hd hta hda 1 0 hti huj
  rcases hiff.mp heq with ⟨_, keys, hpath, _, hspelled⟩
  cases hpath with
  | nil =>
    rw [htname, huname] at heq
    contradiction
  | @cons _ f keys hf _ =>
    -- The first key on the way is the word.
    have hkey : f.1.keyText = "k" := by
      have hmem := List.mem_map_of_mem (f := (·.1.keyText)) hf
      rw [hfields] at hmem
      exact List.mem_singleton.mp hmem
    have hcamel : (upperCamel "k").toList = ['K'] := by decide +kernel
    have hdigit : 'K'.isDigit = true := by
      refine isDigit_of_mem_ordinalName (i := 1) ?_
      rw [hspelled]
      simp [spelled, hkey, hcamel]
    contradiction

/-- A key that is the number. The second dict and the one under the key are declared under one
    name, so they are not declared at all. -/
theorem name_eq_below_of_numeral :
    ∃ tree, Inference.infer {} "E" (nestedRows "2") = .ok tree ∧
      (∃ t ∈ tree.children, ∃ u ∈ tree.children, ∃ d ∈ u.descendants,
        t.isAliased {} = true ∧ d.isAliased {} = true ∧
        t.name = ordinalName (childName "E" (.element t.exampleValue)) 1 ∧ t.digest ≠ d.digest ∧
        t.name = d.name) ∧
      ¬∃ session, tree.render {} = .ok session := by
  obtain ⟨tree, htree, hfound⟩ : ∃ tree, Inference.infer {} "E" (nestedRows "2") = .ok tree ∧
      (tree.children.any fun t => tree.children.any fun u => u.descendants.any fun d =>
        t.isAliased {} && d.isAliased {} &&
        t.name = ordinalName (childName "E" (.element t.exampleValue)) 1 && t.digest ≠ d.digest &&
        t.name = d.name) = true :=
    ⟨_, infer_eq_ok_iff.mpr ⟨by decide +kernel, rfl⟩, by decide +kernel⟩
  simp only [List.any_eq_true, Bool.and_eq_true, decide_eq_true_eq] at hfound
  rcases hfound with ⟨t, ht, u, hu, d, hd, ⟨⟨⟨hta, hda⟩, hordinal⟩, hne⟩, heq⟩
  refine ⟨tree, htree, ⟨t, ht, u, hu, d, hd, hta, hda, hordinal, hne, heq⟩, fun hrender => hne ?_⟩
  have hdnode : d ∈ tree.nodes := mem_nodes_of_child hu (mem_nodes.mpr (Or.inr hd))
  have htnode : t ∈ tree.nodes := mem_nodes_of_child ht (mem_nodes_self t)
  exact render_eq_ok_iff.mp hrender t d ⟨htnode, Or.inr hta⟩ ⟨hdnode, Or.inr hda⟩ heq

end Rows

end Inference

end TypeSketch
