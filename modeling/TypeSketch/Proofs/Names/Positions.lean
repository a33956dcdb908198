import TypeSketch.Proofs.Names.Renaming
import TypeSketch.Proofs.Names.Tokens
import TypeSketch.Proofs.Tree.Groups
import TypeSketch.Proofs.Tree.Parts

/-!
# Names by Position

A key with nothing in it that can stand in a name gives its field a name by its position. This
is the position among the keys of the dict that the field was inferred from, and it stays in
the name. A record can have fields of several dicts, where it has been merged with others:
those of the first dict, and behind them what the next ones have besides. So two fields with
such keys have one name if they stand at one position, each in the first of the dicts that has
its key.

Fields that have come from one dict have different positions and so different names. In a
record that has not been merged these are all fields, and in any record the fields of its own
example are among them.

## Main definitions

* `firstPlace?`: The first dict with a key, and the position of the key there.
* `TypeTree.IsPositioned`: Fields that are named after the places of their keys.
* `TypeTree.ComesFrom`: The dicts that a record has been made from.

## Theorems

* `TypeTree.IsPositioned.rename`, `TypeTree.IsPositioned.merge`: What happens to records.
* `Inference.comesFrom_of_isNode`: An inferred record.
* `Inference.name_eq_iff_of_unnamed`: Fields that are named by position.
-/

namespace TypeSketch

section Places

variable {dicts others : List (List (Value × Value))} {name : String}

/-- The first of some dicts that has a key of this text, and the position of the key there. -/
def firstPlace? (dicts : List (List (Value × Value))) (name : String) :
    Option (List (Value × Value) × Nat) :=
  dicts.findSome? fun dict => ((dict.map (·.1.keyText)).idxOf? name).map (dict, ·)

theorem firstPlace?_append (dicts others : List (List (Value × Value))) (name : String) :
    firstPlace? (dicts ++ others) name = (firstPlace? dicts name).or (firstPlace? others name) :=
  List.findSome?_append

theorem firstPlace?_eq_none_iff :
    firstPlace? dicts name = none ↔ ∀ dict ∈ dicts, name ∉ dict.map (·.1.keyText) := by
  simp only [firstPlace?, List.findSome?_eq_none_iff, Option.map_eq_none_iff, List.idxOf?_eq_none_iff]

/-- At the place of a key there is this key. -/
theorem getElem?_of_firstPlace? {dict : List (Value × Value)} {i : Nat}
    (h : firstPlace? dicts name = some (dict, i)) : (dict.map (·.1.keyText))[i]? = some name := by
  rcases List.exists_of_findSome?_eq_some h with ⟨other, _, hother⟩
  rcases Option.map_eq_some_iff.mp hother with ⟨j, hj, heq⟩
  cases heq
  rcases List.idxOf?_eq_some_iff.mp hj with ⟨hlt, hget, _⟩
  rw [List.getElem?_eq_getElem hlt, hget]

/-- A key of the first dict has its place there. -/
theorem exists_firstPlace?_of_head {dict : List (Value × Value)} (hhead : dicts.head? = some dict)
    (hkey : name ∈ dict.map (·.1.keyText)) : ∃ i, firstPlace? dicts name = some (dict, i) := by
  rcases List.head?_eq_some_iff.mp hhead with ⟨rest, rfl⟩
  cases hplace : (dict.map (·.1.keyText)).idxOf? name with
  | none => exact absurd hkey (List.idxOf?_eq_none_iff.mp hplace)
  | some i => exact ⟨i, by rw [firstPlace?, List.findSome?_cons, hplace]; rfl⟩

/-- In a dict without repeated keys every key is at its first place. -/
theorem firstPlace?_singleton {dict : List (Value × Value)} (hnodup : (dict.map (·.1.keyText)).Nodup)
    {e : Value × Value} {i : Nat} (he : (e, i) ∈ dict.zipIdx) :
    firstPlace? [dict] e.1.keyText = some (dict, i) := by
  have hget : (dict.map (·.1.keyText))[i]? = some e.1.keyText := by
    rw [List.getElem?_map, List.mk_mem_zipIdx_iff_getElem?.mp he, Option.map_some]
  rcases List.getElem?_eq_some_iff.mp hget with ⟨hlt, hkey⟩
  have hplace : (dict.map (·.1.keyText)).idxOf? e.1.keyText = some i := by
    refine List.idxOf?_eq_some_iff.mpr ⟨hlt, hkey, fun j hj heq => ?_⟩
    have hindex := (List.Nodup.getElem_inj_iff hnodup).mp (heq.trans hkey.symm)
    omega
  rw [firstPlace?, List.findSome?_singleton, hplace]
  rfl

end Places

namespace TypeTree

open Naming

/-- The fields of a record of this name that has been made from some dicts. They have the keys of
    the dicts, and each is named after the first place of its key. -/
structure IsPositioned (dicts : List (List (Value × Value))) (name : String)
    (fields : List (Value × TypeTree)) : Prop where
  keys : Value.DistinctKeys fields ∧ Value.TextKeys fields
  hasName_iff : ∀ text, HasName fields text ↔ ∃ dict ∈ dicts, text ∈ dict.map (·.1.keyText)
  name_eq : ∀ f ∈ fields, ∃ dict i, firstPlace? dicts f.1.keyText = some (dict, i) ∧
    f.2.name = Naming.childName name (.field f.1 i)

variable {dicts others : List (List (Value × Value))} {name theirName : String}
  {fields left right : List (Value × TypeTree)}

/-- The fields follow their record. -/
theorem IsPositioned.rename (h : IsPositioned dicts name fields) (newName : String) :
    IsPositioned dicts newName (fields.map fun f => (f.1, followRename name newName f.2)) := by
  refine ⟨⟨?_, ?_⟩, fun text => ?_, List.forall_mem_map.mpr fun f hf => ?_⟩
  · rw [Value.distinctKeys_iff_keys, List.map_map]
    exact Value.distinctKeys_iff_keys.mp h.keys.1
  · exact List.forall_mem_map.mpr h.keys.2
  · rw [← h.hasName_iff, HasName, HasName]
    constructor
    · rintro ⟨_, hf, hname⟩
      rcases List.mem_map.mp hf with ⟨g, hg, rfl⟩
      exact ⟨g, hg, hname⟩
    · rintro ⟨f, hf, hname⟩
      exact ⟨_, List.mem_map_of_mem hf, hname⟩
  -- Renaming changes what the names start with, and the places are in what they end with.
  · rcases h.name_eq f hf with ⟨dict, i, hplace, hname⟩
    refine ⟨dict, i, hplace, ?_⟩
    rw [followRename_of_name_eq hname, name_rename]
    rfl

/-- A record that is merged from two is made from the dicts of both. The fields that it takes over
    keep their positions. -/
theorem IsPositioned.merge (hleft : IsPositioned dicts name left)
    (hright : IsPositioned others theirName right) :
    IsPositioned (dicts ++ others) name (mergeFields name theirName left right) := by
  refine ⟨⟨distinctKeys_mergeFields hleft.keys.1 hright.keys.1 hright.keys.2, fun f hf => ?_⟩,
    fun text => ?_, fun f hf => ?_⟩
  · rcases key_mem_of_mem_mergeFields hright.keys.1 hf with hkey | hkey
    · rcases List.mem_map.mp hkey with ⟨g, hg, heq⟩
      exact heq ▸ hleft.keys.2 g hg
    · rcases List.mem_map.mp hkey with ⟨g, hg, heq⟩
      exact heq ▸ hright.keys.2 g hg
  · rw [hasName_mergeFields hleft.keys hright.keys, hleft.hasName_iff, hright.hasName_iff]
    simp only [List.mem_append, or_and_right, exists_or]
  · rw [mergeFields_eq_append hright.keys.1] at hf
    rw [firstPlace?_append]
    -- The dicts of the first record come first, so its fields keep the places they have.
    rcases List.mem_append.mp hf with hf | hf
    · rcases hleft.name_eq f hf with ⟨dict, i, hplace, hname⟩
      exact ⟨dict, i, by rw [hplace, Option.some_or], hname⟩
    -- A field that is taken over has a key of none of the dicts of the first record.
    · rcases mem_newFields.mp hf with ⟨g, hg, hnone, rfl⟩
      rcases hright.name_eq g hg with ⟨dict, i, hplace, hname⟩
      rw [entry?_eq_none_iff hleft.keys hright.keys hg, hleft.hasName_iff] at hnone
      have hnowhere : firstPlace? dicts g.1.keyText = none :=
        firstPlace?_eq_none_iff.mpr fun dict hdict hkey => hnone ⟨dict, hdict, hkey⟩
      refine ⟨dict, i, by rw [hnowhere, Option.none_or, hplace], ?_⟩
      rw [adopt_eq_followRename, followRename_of_name_eq hname, name_rename]
      rfl

/-- A record and the dicts in an example that it has been made from. The first of them is its own
    example. -/
def ComesFrom (v : Value) (t : TypeTree) (dicts : List (List (Value × Value))) : Prop :=
  (∀ dict ∈ dicts, (Value.mapping dict).IsPart v) ∧
    dicts.head?.map Value.mapping = some t.exampleValue ∧ IsPositioned dicts t.name t.fields

theorem isNodewise_comesFrom (v : Value) :
    IsNodewise fun u => u.isRecord = true → ∃ dicts, ComesFrom v u dicts where
  rename t newName h hrecord := by
    rw [isRecord_rename] at hrecord
    rcases h hrecord with ⟨dicts, hparts, hhead, hpositioned⟩
    rcases exists_eq_of_isRecord hrecord with ⟨name, w, profile, height, shape, fields, rfl⟩
    refine ⟨dicts, hparts, hhead, ?_⟩
    rw [name_rename, fields_rename]
    exact hpositioned.rename newName
  -- The mappings of a merge are those of the first record and then those of the second one.
  merge similarity a b m hm ha hb _ := by
    rcases ha hm.isRecord.1 with ⟨dicts, hparts, hhead, hleft⟩
    rcases hb hm.isRecord.2.1 with ⟨others, hotherParts, _, hright⟩
    cases hm
    refine ⟨dicts ++ others, fun dict hdict => ?_, ?_, hleft.merge hright⟩
    · exact (List.mem_append.mp hdict).elim (hparts dict) (hotherParts dict)
    · rw [List.head?_append]
      cases dicts with
      | nil => contradiction
      | cons dict rest => exact hhead

end TypeTree

/-- The parts of an example without repeated keys have none. -/
theorem Value.HasUniqueKeys.of_isPart {part v : Value} (h : part.IsPart v) (hv : v.HasUniqueKeys) :
    part.HasUniqueKeys := by
  induction h with
  | self => exact hv
  | item item_mem _ ih =>
    rcases hv with _ | ⟨items_unique⟩
    exact ih (items_unique _ item_mem)
  | entry entry_mem _ ih =>
    rcases hv with _ | _ | ⟨_, values_unique⟩
    exact ih (values_unique _ entry_mem)

/-- A key that leaves nothing over is named by its position. -/
theorem ChildKey.suffix_of_unnamed {key : Value} (h : Naming.upperCamel key.keyText = "") (i : Nat) :
    (ChildKey.field key i).suffix = "Field" ++ toString (i + 1) := by
  have hempty : (Naming.upperCamel (ChildKey.field key i).describe).isEmpty = true := by
    rw [ChildKey.describe, h]
    rfl
  rw [ChildKey.suffix, if_pos hempty, ChildKey.fallback]

namespace Inference

open TypeTree Naming

variable {run : Inference} {name : String}

/-- An inferred record is made from its own example. -/
theorem comesFrom_of_isNode {v part : Value} {t : TypeTree} (hpart : part.IsPart v)
    (hkeys : part.HasUniqueKeys) (h : run.IsNode name part t) (hrecord : t.isRecord = true) :
    ∃ dicts, ComesFrom v t dicts := by
  rcases h with _ | _ | @⟨entries, children, _, hfields⟩
  · contradiction
  · contradiction
  -- Only a record is in question, and its keys are texts.
  · have htexts : Value.TextKeys entries := by
      by_contra hnone
      have hform : mappingForm run.strategies entries = .generic :=
        if_neg fun hstyle => hnone (hasTextKeys_iff.mp hstyle.2)
      rw [hform] at hrecord
      contradiction
    rcases hkeys with _ | _ | ⟨hdistinct, _⟩
    have hsame := keys_of_isField hfields
    have hchildren : Value.DistinctKeys children ∧ Value.TextKeys children := by
      refine ⟨?_, fun f hf => ?_⟩
      · rw [Value.distinctKeys_iff_keys, hsame]
        exact Value.distinctKeys_iff_keys.mp hdistinct
      · have hmem : f.1 ∈ entries.map (·.1) := hsame ▸ List.mem_map_of_mem hf
        rcases List.mem_map.mp hmem with ⟨e, he, heq⟩
        exact heq ▸ htexts e he
    have hnames : children.map (·.1.keyText) = entries.map (·.1.keyText) := by
      have hmapped := congrArg (List.map Value.keyText) hsame
      rwa [List.map_map, List.map_map] at hmapped
    rw [distinctFields_eq_self hchildren.1]
    -- The record comes from this one mapping, in which each text has one place.
    refine ⟨[entries], fun dict hdict => List.mem_singleton.mp hdict ▸ hpart, rfl, hchildren,
      fun text => ?_, fun f hf => ?_⟩
    · simp only [List.mem_singleton, exists_eq_left]
      rw [← hnames, List.mem_map]
      rfl
    · rcases exists_mem_left_of_forall₂ hfields hf with ⟨⟨e, i⟩, he, hkey, hchild⟩
      rw [hkey]
      exact ⟨entries, i, firstPlace?_singleton (Value.nodup_keyTexts hdistinct htexts) he,
        name_of_node (child_eq_ok_iff.mp hchild).1⟩

/-- The dicts that a record of an inferred tree has been made from, and its fields with keys that
    name nothing. Two such fields have one name exactly if they stand at one position, each in
    the first dict that has its key; if this is the same dict, they have two names. -/
theorem name_eq_iff_of_unnamed {v : Value} {t r : TypeTree} (hkeys : v.HasUniqueKeys)
    (h : run.infer name v = .ok t) (hr : r ∈ t.nodes) (hrecord : r.isRecord = true) :
    ∃ dicts : List (List (Value × Value)), (∀ dict ∈ dicts, (Value.mapping dict).IsPart v) ∧
      dicts.head?.map Value.mapping = some r.exampleValue ∧
      (∀ text, HasName r.fields text ↔ ∃ dict ∈ dicts, text ∈ dict.map (·.1.keyText)) ∧
      ∀ f ∈ r.fields, ∀ g ∈ r.fields, upperCamel f.1.keyText = "" → upperCamel g.1.keyText = "" →
        ∃ dict i dict' j, firstPlace? dicts f.1.keyText = some (dict, i) ∧
          firstPlace? dicts g.1.keyText = some (dict', j) ∧ (f.2.name = g.2.name ↔ i = j) ∧
          (dict = dict' → f.1 ≠ g.1 → f.2.name ≠ g.2.name) := by
  have hcomes := forall_nodes_of_node (isNodewise_comesFrom v)
    (fun _ _ _ hpart hnode hrecord => comesFrom_of_isNode hpart (hkeys.of_isPart hpart) hnode hrecord)
    (infer_eq_ok_iff.mp h).2 r hr hrecord
  rcases hcomes with ⟨dicts, hparts, hhead, hfields, hnames, hnamed⟩
  refine ⟨dicts, hparts, hhead, hnames, fun f hf g hg hfkey hgkey => ?_⟩
  rcases hnamed f hf with ⟨dict, i, hi, hfname⟩
  rcases hnamed g hg with ⟨dict', j, hj, hgname⟩
  -- Behind the name of the record there is the position and nothing else of the key.
  have hiff : f.2.name = g.2.name ↔ i = j := by
    rw [hfname, hgname, Naming.childName, Naming.childName, ChildKey.suffix_of_unnamed hfkey,
      ChildKey.suffix_of_unnamed hgkey, String.append_right_inj, String.append_right_inj]
    exact ⟨fun heq => Nat.succ.inj (toString_injective heq), fun heq => by rw [heq]⟩
  refine ⟨dict, i, dict', j, hi, hj, hiff, fun hdict hne hname => hne ?_⟩
  -- At one position of one dict there is one key.
  have hplace := getElem?_of_firstPlace? hi
  rw [hdict, hiff.mp hname, getElem?_of_firstPlace? hj, Option.some.injEq] at hplace
  exact Value.eq_of_keyText_eq (hfields.2 f hf) (hfields.2 g hg) hplace.symm

section Signs

/-- The dict with dicts under two keys that are signs. -/
def signs : Value :=
  .mapping [(.str "$", .mapping [(.str "x", .int 1)]), (.str "#", .mapping [(.str "y", .int 1)])]

/-- Two keys of one dict that are signs give two names. -/
theorem name_eq_iff_of_unnamed_dict :
    signs.HasUniqueKeys ∧ ∃ t, Inference.infer {} "E" signs = .ok t ∧ t.isRecord = true ∧
      ∀ f ∈ t.fields, ∀ g ∈ t.fields, f.1 ≠ g.1 → f.2.name ≠ g.2.name := by
  have hunique : signs.HasUniqueKeys := by decide +kernel
  obtain ⟨t, ht, hrecord, hkeys, hexample⟩ : ∃ t, Inference.infer {} "E" signs = .ok t ∧
      t.isRecord = true ∧ t.fields.map (·.1.keyText) = ["$", "#"] ∧ t.exampleValue = signs :=
    ⟨_, infer_eq_ok_iff.mpr ⟨by decide +kernel, rfl⟩, rfl, rfl, rfl⟩
  refine ⟨hunique, t, ht, hrecord, fun f hf g hg hne => ?_⟩
  have hnames : ∀ e ∈ t.fields, e.1.keyText ∈ ["$", "#"] := fun e he => by
    rw [← hkeys]
    exact List.mem_map_of_mem he
  -- Neither of the two keys has a letter for a name.
  have hunnamed : ∀ text ∈ ["$", "#"], upperCamel text = "" := by decide +kernel
  rcases name_eq_iff_of_unnamed hunique ht (mem_nodes_self t) hrecord with
    ⟨dicts, _, hhead, _, hfields⟩
  rcases hfields f hf g hg (hunnamed _ (hnames f hf)) (hunnamed _ (hnames g hg)) with
    ⟨dict, i, dict', j, hi, hj, _, hdiffer⟩
  refine hdiffer ?_ hne
  -- The first dict has both keys, so it is the first one with each of them.
  rw [hexample] at hhead
  rcases Option.map_eq_some_iff.mp hhead with ⟨first, hfirst, heq⟩
  cases heq
  rcases exists_firstPlace?_of_head hfirst (hnames f hf) with ⟨i', hi'⟩
  rcases exists_firstPlace?_of_head hfirst (hnames g hg) with ⟨j', hj'⟩
  rw [hi'] at hi
  rw [hj'] at hj
  cases hi
  cases hj
  rfl

/-- A row with a sign as the first of its keys. -/
def signRow (sign field : String) : Value :=
  .mapping [(.str sign, .mapping [(.str field, .int 1)]), (.str "a", .int 1), (.str "b", .int 1)]

/-- Two keys of signs in two dicts, both the first ones there. Their fields are of different types
    and have one name. -/
theorem name_eq_of_unnamed_signs :
    (Value.sequence .list [signRow "$" "x", signRow "#" "y"]).HasUniqueKeys ∧
    ∃ t, Inference.infer {} "E" (.sequence .list [signRow "$" "x", signRow "#" "y"]) = .ok t ∧
      ∃ r ∈ t.nodes, r.isRecord = true ∧ ∃ f ∈ r.fields, ∃ g ∈ r.fields,
        upperCamel f.1.keyText = "" ∧ upperCamel g.1.keyText = "" ∧
        f.2.isAliased {} = true ∧ g.2.isAliased {} = true ∧ f.2.shape ≠ g.2.shape ∧
        f.2.name = g.2.name := by
  refine ⟨by decide +kernel, ?_⟩
  obtain ⟨t, ht, hfound⟩ : ∃ t, Inference.infer {} "E"
      (.sequence .list [signRow "$" "x", signRow "#" "y"]) = .ok t ∧
      (t.nodes.any fun r => r.isRecord && r.fields.any fun f => r.fields.any fun g =>
        upperCamel f.1.keyText = "" && upperCamel g.1.keyText = "" && f.2.isAliased {} &&
          g.2.isAliased {} && f.2.shape ≠ g.2.shape && f.2.name = g.2.name) = true :=
    ⟨_, rfl, by decide +kernel⟩
  simp only [List.any_eq_true, Bool.and_eq_true, decide_eq_true_eq] at hfound
  rcases hfound with
    ⟨r, hr, hrecord, f, hf, g, hg, ⟨⟨⟨⟨hfkey, hgkey⟩, hfa⟩, hga⟩, hshape⟩, hname⟩
  exact ⟨t, ht, r, hr, hrecord, f, hf, g, hg, hfkey, hgkey, hfa, hga, hshape, hname⟩

end Signs

end Inference

end TypeSketch
