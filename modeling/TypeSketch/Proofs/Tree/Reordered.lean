import TypeSketch.Proofs.Names.ChildNames
import TypeSketch.Proofs.Tree.Agreement
import TypeSketch.Proofs.Tree.MergedShapes

/-!
# Mappings in Another Order

What becomes of an example when the entries of its mappings come in another order, at any
depth. The shape does not change: a record has its fields in the order of their names, a
generic mapping has sets of types, and whether two records in a sequence are merged goes by
their shapes.

The position of an entry can be in the name of its field, so the names in the two trees may
differ. Below an identifier every name is one, and nothing else is asked of names. So the
induction is for any two identifiers.

Keys must be unique in both orders. Keys with mappings in them can become one key when these
are reordered, and only one of their fields is left then.

A constructor of a caller's own can look at the order of entries, as one does that has a mapping
spelled as its text. So it has to be blind to the order.

## Main definitions

* `Value.IsReordered`: Another order of the entries of all mappings.
* `Builder.Matched`: Entries that are inferred to related fields.
* `Builder.IsOrderBlind`: What is asked of constructors of a caller's own.

## Theorems

* `Builder.agrees_fieldNodes_of_matched`: Fields in any order.
* `Builder.agrees_node_of_areReordered`: Nodes of one shape.
* `Builder.shape_eq_of_isReordered`: The order of entries does not matter to the shape.
-/

namespace TypeSketch

namespace Value

/-- The entries of any mappings in the value, keys included, come in another order. -/
inductive IsReordered : Value → Value → Prop
  | atom (a : Atom) : IsReordered (.atom a) (.atom a)
  | sequence {kind : SequenceKind} {items others : List Value}
    (items_reordered : List.Forall₂ IsReordered items others) :
    IsReordered (.sequence kind items) (.sequence kind others)
  | mapping {entries moved others : List (Value × Value)} (entries_perm : entries.Perm moved)
    (keys_reordered : List.Forall₂ IsReordered (moved.map Prod.fst) (others.map Prod.fst))
    (values_reordered : List.Forall₂ IsReordered (moved.map Prod.snd) (others.map Prod.snd)) :
    IsReordered (.mapping entries) (.mapping others)

variable {v w : Value}

theorem IsReordered.kind_eq (h : v.IsReordered w) : v.kind = w.kind := by
  cases h <;> rfl

theorem IsReordered.eq_of_str {text : String} (h : v.IsReordered w)
    (htext : v = .str text ∨ w = .str text) : v = w := by
  rcases htext with rfl | rfl
  · cases h
    rfl
  · cases h
    rfl

/-- Entries of a mapping stay what they are, up to orders in them, at another place. -/
theorem IsReordered.entries {entries others : List (Value × Value)}
    (h : (Value.mapping entries).IsReordered (.mapping others)) :
    (∀ e ∈ entries, ∃ o ∈ others, e.1.IsReordered o.1 ∧ e.2.IsReordered o.2) ∧
      ∀ o ∈ others, ∃ e ∈ entries, e.1.IsReordered o.1 ∧ e.2.IsReordered o.2 := by
  cases h with | @mapping _ moved _ entries_perm keys_reordered values_reordered =>
  have hpairs := forall₂_pairs keys_reordered values_reordered
  constructor
  · exact fun e he => exists_mem_right_of_forall₂ hpairs (entries_perm.mem_iff.mp he)
  · intro o ho
    rcases exists_mem_left_of_forall₂ hpairs ho with ⟨e, he, hreordered⟩
    exact ⟨e, entries_perm.mem_iff.mpr he, hreordered⟩

end Value

namespace TypeTree

section Fields

variable {fields others : List (Value × TypeTree)}

/-- Records of which all fields are required have one shape if each field of the one has the
    name and the shape of a field of the other one. -/
theorem shapeOfFields_record_congr {profile other : RecordProfile}
    (hprofile : profile.optionalFields = other.optionalFields)
    (hfields : Value.DistinctKeys fields ∧ Value.TextKeys fields)
    (hothers : Value.DistinctKeys others ∧ Value.TextKeys others)
    (hleft : ∀ f ∈ fields, ∃ g ∈ others, f.1 = g.1 ∧ f.2.shape = g.2.shape)
    (hright : ∀ g ∈ others, ∃ f ∈ fields, f.1 = g.1 ∧ f.2.shape = g.2.shape) :
    shapeOfFields (.record profile) fields = shapeOfFields (.record other) others := by
  have hsorted : sortedFields profile fields = sortedFields other others := by
    refine sortedFields_eq_of_mem_iff (nodup_names_sortedFields hfields.1 hfields.2)
      (nodup_names_sortedFields hothers.1 hothers.2) fun ⟨⟨name, required⟩, shape⟩ => ?_
    rw [mem_sortedFields_iff, mem_sortedFields_iff, hprofile]
    refine and_congr_left' ⟨?_, ?_⟩
    · rintro ⟨f, hf, rfl, rfl⟩
      rcases hleft f hf with ⟨g, hg, hkey, hshape⟩
      exact ⟨g, hg, by rw [hkey], hshape.symm⟩
    · rintro ⟨g, hg, rfl, rfl⟩
      rcases hright g hg with ⟨f, hf, hkey, hshape⟩
      exact ⟨f, hf, by rw [hkey], hshape⟩
  rw [shapeOfFields, shapeOfFields, hsorted]

/-- Generic mappings have one shape if each entry of the one has the types of an entry of the
    other one. -/
theorem shapeOfFields_generic_congr
    (hleft : ∀ f ∈ fields, ∃ g ∈ others, f.1.typeName = g.1.typeName ∧ f.2.shape = g.2.shape)
    (hright : ∀ g ∈ others, ∃ f ∈ fields, f.1.typeName = g.1.typeName ∧ f.2.shape = g.2.shape) :
    shapeOfFields .generic fields = shapeOfFields .generic others := by
  -- Only the set of key types and the set of the shapes go into it.
  have hkeys : NameSet.ofList (fields.map (·.1.typeName)) =
      NameSet.ofList (others.map (·.1.typeName)) := by
    refine NameSet.ext_mem fun name => ?_
    rw [NameSet.mem_ofList, NameSet.mem_ofList, List.mem_map, List.mem_map]
    constructor
    · rintro ⟨f, hf, rfl⟩
      rcases hleft f hf with ⟨g, hg, htype, _⟩
      exact ⟨g, hg, htype.symm⟩
    · rintro ⟨g, hg, rfl⟩
      rcases hright g hg with ⟨f, hf, htype, _⟩
      exact ⟨f, hf, htype⟩
  -- A shape on the one side is one of the other side, by the field that corresponds.
  have hvalues : unorderedShapes (fields.map (·.2)) = unorderedShapes (others.map (·.2)) := by
    refine unorderedShapes_congr fun part => ?_
    rw [List.map_map, List.map_map, List.mem_map, List.mem_map]
    constructor
    · rintro ⟨f, hf, rfl⟩
      rcases hleft f hf with ⟨g, hg, _, hshape⟩
      exact ⟨g, hg, hshape.symm⟩
    · rintro ⟨g, hg, rfl⟩
      rcases hright g hg with ⟨f, hf, _, hshape⟩
      exact ⟨f, hf, hshape⟩
  rw [shapeOfFields, shapeOfFields, hkeys, hvalues]

end Fields

end TypeTree

namespace Inference

open TypeTree Naming

section Mappings

variable {entries others : List (Value × Value)}

/-- Whether all keys are texts does not depend on the order of entries. -/
theorem hasTextKeys_eq_of_isReordered (h : (Value.mapping entries).IsReordered (.mapping others)) :
    hasTextKeys entries = hasTextKeys others := by
  rw [Bool.eq_iff_iff, hasTextKeys_iff, hasTextKeys_iff]
  constructor
  · intro htexts o ho
    rcases h.entries.2 o ho with ⟨e, he, hkey, _⟩
    rcases htexts e he with ⟨text, htext⟩
    exact ⟨text, by rw [← hkey.eq_of_str (Or.inl htext), htext]⟩
  · intro htexts e he
    rcases h.entries.1 e he with ⟨o, ho, hkey, _⟩
    rcases htexts o ho with ⟨text, htext⟩
    exact ⟨text, by rw [hkey.eq_of_str (Or.inr htext), htext]⟩

/-- Fields of reordered entries make mappings of one shape. -/
theorem shapeOfFields_eq_of_isReordered (s : Strategies)
    (h : (Value.mapping entries).IsReordered (.mapping others))
    {fields fields' : List (Value × TypeTree)}
    (hkeys : fields.map (·.1) = entries.map (·.1)) (hkeys' : fields'.map (·.1) = others.map (·.1))
    (hdistinct : Value.DistinctKeys fields) (hdistinct' : Value.DistinctKeys fields')
    (hleft : ∀ f ∈ fields, ∃ g ∈ fields', f.1.IsReordered g.1 ∧ f.2.shape = g.2.shape)
    (hright : ∀ g ∈ fields', ∃ f ∈ fields, f.1.IsReordered g.1 ∧ f.2.shape = g.2.shape) :
    shapeOfFields (mappingForm s entries) fields = shapeOfFields (mappingForm s others) fields' := by
  have hsame := hasTextKeys_eq_of_isReordered h
  have hfits := hkeys ▸ fits_mappingForm s entries
  have hfits' := hkeys' ▸ fits_mappingForm s others
  -- The keys of a record are texts, and a text has no parts to put into another order.
  by_cases hrecord : s.dictStyle = .typedDict ∧ hasTextKeys entries = true
  · rw [mappingForm, if_pos hrecord] at hfits ⊢
    rw [mappingForm, if_pos (hsame ▸ hrecord)] at hfits' ⊢
    have htexts := hfits.textKeys
    refine shapeOfFields_record_congr rfl ⟨hdistinct, htexts⟩ ⟨hdistinct', hfits'.textKeys⟩
      (fun f hf => ?_) fun g hg => ?_
    · rcases hleft f hf with ⟨g, hg, hkey, hshape⟩
      rcases htexts f hf with ⟨text, htext⟩
      exact ⟨g, hg, hkey.eq_of_str (Or.inl htext), hshape⟩
    · rcases hright g hg with ⟨f, hf, hkey, hshape⟩
      rcases htexts f hf with ⟨text, htext⟩
      exact ⟨f, hf, hkey.eq_of_str (Or.inl htext), hshape⟩
  · rw [mappingForm, if_neg hrecord, mappingForm, if_neg (hsame ▸ hrecord)]
    -- A generic mapping knows its keys by their types, and those are the same.
    have htype : ∀ {v w : Value}, v.IsReordered w → v.typeName = w.typeName :=
      fun h => congrArg ValueKind.typeName h.kind_eq
    refine shapeOfFields_generic_congr (fun f hf => ?_) fun g hg => ?_
    · rcases hleft f hf with ⟨g, hg, hkey, hshape⟩
      exact ⟨g, hg, htype hkey, hshape⟩
    · rcases hright g hg with ⟨f, hf, hkey, hshape⟩
      exact ⟨f, hf, htype hkey, hshape⟩

end Mappings

end Inference

namespace Builder

open Inference TypeTree Naming

variable {b : Builder} {n m : String} {entries others : List (Value × Value)}

section Matched

/-- Entries with related keys that are inferred to related trees below two nodes, at any
    positions. -/
def Matched (b : Builder) (n m : String) (K : Value → Value → Prop)
    (R : TypeTree → TypeTree → Prop) (e o : Value × Value) : Prop :=
  K e.1 o.1 ∧ ∀ i j, Agrees (fun _ _ => True) R (b.child n (.field e.1 i) e.2)
    (b.child m (.field o.1 j) o.2)

variable {K : Value → Value → Prop} {R : TypeTree → TypeTree → Prop}

theorem exists_fieldNodes (h : ∀ e ∈ entries, ∀ i, ∃ t, b.child n (.field e.1 i) e.2 = .ok t) :
    ∃ children, b.fieldNodes n 0 entries = .ok children := by
  have hfields : ∀ e ∈ entries.zipIdx, ∃ f, b.IsField n e f := by
    intro e he
    rcases h e.1 (List.fst_mem_of_mem_zipIdx he) e.2 with ⟨t, ht⟩
    exact ⟨(e.1.1, t), rfl, ht⟩
  rcases exists_forall₂_of_forall_exists hfields with ⟨children, hchildren⟩
  exact ⟨children, fieldNodes_eq_ok_iff.mpr hchildren⟩

variable {children : List (Value × TypeTree)} (h : b.fieldNodes n 0 entries = .ok children)

include h

theorem exists_field_of_entry {e : Value × Value} (he : e ∈ entries) :
    ∃ i, ∃ f ∈ children, b.IsField n (e, i) f := by
  rw [← @List.zipIdx_map_fst _ 0 entries] at he
  rcases List.mem_map.mp he with ⟨⟨_, i⟩, hmem, rfl⟩
  exact ⟨i, exists_mem_right_of_forall₂ (fieldNodes_eq_ok_iff.mp h) hmem⟩

theorem exists_entry_of_field {f : Value × TypeTree} (hf : f ∈ children) :
    ∃ e ∈ entries, ∃ i, b.IsField n (e, i) f := by
  rcases exists_mem_left_of_forall₂ (fieldNodes_eq_ok_iff.mp h) hf with ⟨⟨e, i⟩, hmem, hfield⟩
  exact ⟨e, List.fst_mem_of_mem_zipIdx hmem, i, hfield⟩

/-- Entries can be inferred if the child of each one can wherever that of some entry here can. -/
theorem exists_fieldNodes_of_fieldNodes {others : List (Value × Value)}
    (hmade : ∀ o ∈ others, ∃ e ∈ entries, ∀ i j,
      (∃ t, b.child n (.field e.1 i) e.2 = .ok t) → ∃ u, b.child m (.field o.1 j) o.2 = .ok u) :
    ∃ children', b.fieldNodes m 0 others = .ok children' := by
  refine exists_fieldNodes fun o ho j => ?_
  rcases hmade o ho with ⟨e, he, hchild⟩
  rcases exists_field_of_entry h he with ⟨i, f, _, hf⟩
  exact hchild i j ⟨_, hf.2⟩

end Matched

section Reordered

variable {K : Value → Value → Prop} {R : TypeTree → TypeTree → Prop}

theorem Matched.related {e o : Value × Value} {i j : Nat} {f g : Value × TypeTree}
    (h : b.Matched n m K R e o) (hf : b.IsField n (e, i) f) (hg : b.IsField m (o, j) g) :
    K f.1 g.1 ∧ R f.2 g.2 := by
  have hchild := h.2 i j
  rw [hf.2, hg.2] at hchild
  rw [hf.1, hg.1]
  exact ⟨h.1, hchild.of_ok⟩

/-- If each entry of two mappings is matched in the other one, both fail, or each field is
    related to one of the other mapping. -/
theorem agrees_fieldNodes_of_matched
    (hleft : ∀ e ∈ entries, ∃ o ∈ others, b.Matched n m K R e o)
    (hright : ∀ o ∈ others, ∃ e ∈ entries, b.Matched n m K R e o) :
    Agrees (fun _ _ => True) (fun children children' =>
        (∀ f ∈ children, ∃ g ∈ children', K f.1 g.1 ∧ R f.2 g.2) ∧
          ∀ g ∈ children', ∃ f ∈ children, K f.1 g.1 ∧ R f.2 g.2)
      (b.fieldNodes n 0 entries) (b.fieldNodes m 0 others) := by
  -- An entry is inferred wherever one that it matches is.
  have hiff : (∃ children, b.fieldNodes n 0 entries = .ok children) ↔
      ∃ children', b.fieldNodes m 0 others = .ok children' := by
    constructor
    · rintro ⟨children, hfields⟩
      exact exists_fieldNodes_of_fieldNodes hfields fun o ho => (hright o ho).imp fun e he =>
        ⟨he.1, fun i j => (he.2.2 i j).ok_iff.mp⟩
    · rintro ⟨children', hothers⟩
      exact exists_fieldNodes_of_fieldNodes hothers fun e he => (hleft e he).imp fun o ho =>
        ⟨ho.1, fun j i => (ho.2.2 i j).ok_iff.mpr⟩
  cases hfields : b.fieldNodes n 0 entries with
  | error e =>
    cases hothers : b.fieldNodes m 0 others with
    | error e' => exact .error trivial
    | ok children' =>
      rcases hiff.mpr ⟨_, hothers⟩ with ⟨_, hmade⟩
      rw [hmade] at hfields
      contradiction
  | ok children =>
    cases hothers : b.fieldNodes m 0 others with
    | error e =>
      rcases hiff.mp ⟨_, hfields⟩ with ⟨_, hmade⟩
      rw [hmade] at hothers
      contradiction
    | ok children' =>
      refine .ok ⟨fun f hf => ?_, fun g hg => ?_⟩
      · rcases exists_entry_of_field hfields hf with ⟨e, he, i, hfield⟩
        rcases hleft e he with ⟨o, ho, hmatched⟩
        rcases exists_field_of_entry hothers ho with ⟨j, g, hg, hfield'⟩
        exact ⟨g, hg, hmatched.related hfield hfield'⟩
      · rcases exists_entry_of_field hothers hg with ⟨o, ho, j, hfield'⟩
        rcases hright o ho with ⟨e, he, hmatched⟩
        rcases exists_field_of_entry hfields he with ⟨i, f, hf, hfield⟩
        exact ⟨f, hf, hmatched.related hfield hfield'⟩

/-- The fields that inference has of a mapping with unique keys. -/
theorem distinctKeys_of_fieldNodes {children : List (Value × TypeTree)}
    (h : b.fieldNodes n 0 entries = .ok children) (hdistinct : Value.DistinctKeys entries) :
    children.map (·.1) = entries.map (·.1) ∧ Value.DistinctKeys children := by
  have hkeys := keys_of_isField (fieldNodes_eq_ok_iff.mp h)
  refine ⟨hkeys, ?_⟩
  rw [Value.distinctKeys_iff_keys] at hdistinct ⊢
  rwa [hkeys]

/-- Two identifiers, and two values of which one is the other one with the entries of mappings in
    another order. Keys are unique in both. -/
structure AreReordered (n m : String) (v w : Value) : Prop where
  left_name : isIdentifier n = true
  right_name : isIdentifier m = true
  reordered : v.IsReordered w
  left_keys : v.HasUniqueKeys
  right_keys : w.HasUniqueKeys

/-- The constructors of a caller's own do not look at the order of entries: if the nodes of smaller
    values are coherent and have the same shapes in any order, then so do the nodes that the
    constructors make, and they refuse a value in every order or in none. -/
def IsOrderBlind (b : Builder) : Prop :=
  b.PreservesAgreement AreReordered (fun _ _ => True) (EqShape b.strategies)

section Registered

/-! One step of inference on a kind that is left to the registry. -/

/-- What the nodes of any two reordered parts do agrees: both parts are refused, or the nodes have
    one shape. -/
abbrev ShapesAgree (b : Builder) (x y : Except InferenceError TypeTree) : Prop :=
  Agrees (fun _ _ => True) (EqShape b.strategies) x y

theorem eqShape_scalar (s : Strategies) (n m : String) (v w : Value) (type : ScalarType) :
    EqShape s (.scalar n v type) (.scalar m w type) :=
  ⟨.scalar n v type, .scalar m w type, rfl⟩

/-- The nodes of two sequences have one shape if their elements have the same shapes. -/
theorem eqShape_ofElements {kind : SequenceKind} {elementKind : ElementKind} {v w : Value}
    {trees trees' : List TypeTree} (hkind : b.elementKind? kind = some elementKind)
    (h : List.Forall₂ (EqShape b.strategies) trees trees') :
    EqShape b.strategies (.ofElements n v elementKind (arrange b.strategies elementKind trees))
      (.ofElements m w elementKind (arrange b.strategies elementKind trees')) := by
  rcases elementKind?_eq_some_iff.mp hkind with ⟨rule, _, hrule⟩
  refine ⟨coherent_ofElements n _ hrule fun t ht => ?_, coherent_ofElements m _ hrule fun u hu => ?_,
    shapeOfElements_congr elementKind (map_shape_arrange h)⟩
  · rcases exists_mem_right_of_forall₂ h ht with ⟨_, _, heq⟩
    exact heq.left_coherent
  · rcases exists_mem_left_of_forall₂ h hu with ⟨_, _, heq⟩
    exact heq.right_coherent

/-- The nodes of two mappings with unique keys have one shape if each field of the one has a
    counterpart of its shape in the other one. -/
theorem eqShape_ofFields {children children' : List (Value × TypeTree)}
    (h : (Value.mapping entries).IsReordered (.mapping others))
    (hkeys : children.map (·.1) = entries.map (·.1) ∧ Value.DistinctKeys children)
    (hkeys' : children'.map (·.1) = others.map (·.1) ∧ Value.DistinctKeys children')
    (hleft : ∀ f ∈ children, ∃ g ∈ children', f.1.IsReordered g.1 ∧ EqShape b.strategies f.2 g.2)
    (hright : ∀ g ∈ children', ∃ f ∈ children, f.1.IsReordered g.1 ∧ EqShape b.strategies f.2 g.2) :
    EqShape b.strategies
      (.ofFields n (.mapping entries) (mappingForm b.strategies entries) (distinctFields children))
      (.ofFields m (.mapping others) (mappingForm b.strategies others) (distinctFields children')) := by
  refine ⟨coherent_ofFields n _ hkeys.1 fun f hf => ?_, coherent_ofFields m _ hkeys'.1 fun g hg => ?_, ?_⟩
  · rcases hleft f hf with ⟨_, _, _, heq⟩
    exact heq.left_coherent
  · rcases hright g hg with ⟨_, _, _, heq⟩
    exact heq.right_coherent
  -- Keys are unique, so the fields that are left are all fields.
  · rw [distinctFields_eq_self hkeys.2, distinctFields_eq_self hkeys'.2]
    refine shapeOfFields_eq_of_isReordered _ h hkeys.1 hkeys'.1 hkeys.2 hkeys'.2 (fun f hf => ?_)
      fun g hg => ?_
    · exact (hleft f hf).imp fun g hg => ⟨hg.1, hg.2.1, hg.2.2.shape_eq⟩
    · exact (hright g hg).imp fun f hf => ⟨hf.1, hf.2.1, hf.2.2.shape_eq⟩

/-- Parts of two nodes are named by identifiers if the nodes are, so their names are not refused. -/
theorem shapesAgree_child {key key' : ChildKey} {part part' v : Value} (hn : isIdentifier n = true)
    (hm : isIdentifier m = true) (hsize : sizeOf part < sizeOf v) (hparts : part.IsReordered part')
    (hkeys : part.HasUniqueKeys) (hkeys' : part'.HasUniqueKeys)
    (hbelow : b.AgreesBelow AreReordered (fun _ _ => True) (EqShape b.strategies) v) :
    b.ShapesAgree (b.child n key part) (b.child m key' part') := by
  rw [child_eq_node hn, child_eq_node hm]
  exact hbelow _ _ part part' hsize
    ⟨isIdentifier_childName hn key, isIdentifier_childName hm key', hparts, hkeys, hkeys'⟩

theorem agrees_registered_of_areReordered {v w : Value} (hnone : b.supplied v.kind = none)
    (h : AreReordered n m v w)
    (hbelow : b.AgreesBelow AreReordered (fun _ _ => True) (EqShape b.strategies) v) :
    b.ShapesAgree (b.node n v) (b.node m w) := by
  rcases h with ⟨hn, hm, hreordered, hv, hw⟩
  have htrivial : InferenceError → True := fun _ => trivial
  cases hreordered with
  | atom a => exact agrees_atom htrivial hnone rfl (eqShape_scalar _ n m _ _)
  | @sequence kind items items' items_reordered =>
    rcases hv with _ | items_unique
    rcases hw with _ | items_unique'
    -- The items of a sequence stay at their places, so they are compared one by one.
    have hitems : Agrees (fun _ _ => True) (List.Forall₂ (EqShape b.strategies))
        (b.elementNodes n items) (b.elementNodes m items') := by
      refine agrees_elementNodes
        (List.forall₂_iff_zip.mpr ⟨items_reordered.length_eq, fun {item item'} hzip => ?_⟩)
      have hmem := List.of_mem_zip hzip
      exact shapesAgree_child hn hm (Value.sizeOf_item_lt hmem.1)
        (List.forall₂_zip items_reordered hzip) (items_unique item hmem.1)
        (items_unique' item' hmem.2) hbelow
    exact agrees_sequence htrivial hnone (eqShape_scalar _ n m _ _) hitems
      fun _ _ _ hkind htrees => eqShape_ofElements hkind htrees
  | @mapping entries moved others entries_perm keys_reordered values_reordered =>
    have h := Value.IsReordered.mapping entries_perm keys_reordered values_reordered
    rcases hv with _ | _ | ⟨keys_distinct, values_unique⟩
    rcases hw with _ | _ | ⟨keys_distinct', values_unique'⟩
    -- At whatever places an entry and its counterpart are, their nodes have one shape.
    have hmatched : ∀ e ∈ entries, ∀ o ∈ others, e.1.IsReordered o.1 ∧ e.2.IsReordered o.2 →
        b.Matched n m Value.IsReordered (EqShape b.strategies) e o :=
      fun e he o ho hreordered => ⟨hreordered.1, fun i j => shapesAgree_child hn hm
        (Value.sizeOf_entry_lt he).2 hreordered.2 (values_unique e he) (values_unique' o ho) hbelow⟩
    have hfields := @agrees_fieldNodes_of_matched b n m _ _ _ _
      (fun e he => (h.entries.1 e he).imp fun o ho => ⟨ho.1, hmatched e he o ho.1 ho.2⟩)
      fun o ho => (h.entries.2 o ho).imp fun e he => ⟨he.1, hmatched e he.1 o ho he.2⟩
    refine agrees_mapping htrivial hnone (eqShape_scalar _ n m _ _)
      (hfields.imp fun children children' hok hok' hrelated =>
        And.intro (distinctKeys_of_fieldNodes hok keys_distinct)
          (And.intro (distinctKeys_of_fieldNodes hok' keys_distinct') hrelated)) ?_
    rintro children children' ⟨hkeys, hkeys', hleft, hright⟩
    exact eqShape_ofFields h hkeys hkeys' hleft hright

end Registered

theorem agrees_node_of_areReordered (hblind : b.IsOrderBlind) {v w : Value}
    (h : AreReordered n m v w) :
    Agrees (fun _ _ => True) (EqShape b.strategies) (b.node n v) (b.node m w) :=
  agrees_node (P := AreReordered) hblind (fun h => h.reordered.kind_eq)
    agrees_registered_of_areReordered h

/-- An example whose mappings have their entries in another order is refused as well, or has a
    tree of the same shape and the same digest. -/
theorem shape_eq_of_isReordered {b : Builder} (hblind : b.IsOrderBlind) (name : String) {v w : Value}
    (h : v.IsReordered w) (hv : v.HasUniqueKeys) (hw : w.HasUniqueKeys) :
    (∃ e e', b.infer name v = .error e ∧ b.infer name w = .error e') ∨
      ∃ t u, b.infer name v = .ok t ∧ b.infer name w = .ok u ∧
        t.shape = u.shape ∧ t.shape.digest = u.shape.digest := by
  rw [infer, infer]
  split
  · next hname =>
    have hnodes := agrees_node_of_areReordered hblind ⟨hname, hname, h, hv, hw⟩
    generalize b.node name v = x, b.node name w = y at hnodes
    cases hnodes with
    | error => exact Or.inl ⟨_, _, rfl, rfl⟩
    | ok heq => exact Or.inr ⟨_, _, rfl, rfl, heq.shape_eq, congrArg Shape.digest heq.shape_eq⟩
  · exact Or.inl ⟨_, _, rfl, rfl⟩

/-- Rows with their columns in another order, in a table with its parts in another order, if a
    caller has lists made like tuples. -/
theorem shape_eq_of_isReordered_table :
    let tuples : Inference :=
      { registry := Registry.standard.register (.sequence .list) (.container .positional) }
    let b := Inference.leaving {} (.sequence .list) tuples
    let v := Value.mapping [(.str "rows", .sequence .list
      [.mapping [(.str "id", .int 1), (.str "at", .str "x")], .mapping [(.str "id", .int 2)]]),
      (.str "count", .int 2)]
    let w := Value.mapping [(.str "count", .int 2), (.str "rows", .sequence .list
      [.mapping [(.str "at", .str "x"), (.str "id", .int 1)], .mapping [(.str "id", .int 2)]])]
    b.IsOrderBlind ∧ v.IsReordered w ∧ v.HasUniqueKeys ∧ w.HasUniqueKeys ∧
      ∃ t u, b.infer "Table" v = .ok t ∧ b.infer "Table" w = .ok u ∧
        t.shape.digest = u.shape.digest := by
  intro tuples b v w
  have hblind : b.IsOrderBlind := Inference.preservesAgreement_leaving
    (agrees_node_of_areReordered (b := tuples.builder) tuples.preservesAgreement)
  -- The first row has its keys in another order, and so has the table.
  have hrow : (Value.mapping [(.str "id", .int 1), (.str "at", .str "x")]).IsReordered
      (.mapping [(.str "at", .str "x"), (.str "id", .int 1)]) :=
    .mapping (.swap _ _ _) (.cons (.atom _) (.cons (.atom _) .nil))
      (.cons (.atom _) (.cons (.atom _) .nil))
  have hrest : (Value.mapping [(.str "id", .int 2)]).IsReordered (.mapping [(.str "id", .int 2)]) :=
    .mapping (.refl _) (.cons (.atom _) .nil) (.cons (.atom _) .nil)
  have h : v.IsReordered w :=
    .mapping (.swap _ _ _) (.cons (.atom _) (.cons (.atom _) .nil))
      (.cons (.atom _) (.cons (.sequence (.cons hrow (.cons hrest .nil))) .nil))
  have hv : v.HasUniqueKeys := by decide +kernel
  have hw : w.HasUniqueKeys := by decide +kernel
  have hok : (b.infer "Table" v).toBool = true := by decide +kernel
  rcases shape_eq_of_isReordered hblind "Table" h hv hw with ⟨e, e', herror, _⟩ | ⟨t, u, ht, hu, _, hdigest⟩
  · rw [herror] at hok
    contradiction
  · exact ⟨hblind, h, hv, hw, t, u, ht, hu, hdigest⟩

/-- Two keys that are mappings become one key, and only one of the two values is left. -/
theorem shape_ne_of_isReordered_keys :
    let run : Inference := {}
    let key := Value.mapping [(.str "a", .int 1), (.str "b", .int 2)]
    let moved := Value.mapping [(.str "b", .int 2), (.str "a", .int 1)]
    let v := Value.mapping [(key, .int 1), (moved, .str "x")]
    let w := Value.mapping [(moved, .int 1), (moved, .str "x")]
    v.IsReordered w ∧ v.HasUniqueKeys ∧
      ∃ t u, run.infer "E" v = .ok t ∧ run.infer "E" w = .ok u ∧ t.shape.digest ≠ u.shape.digest := by
  intro run key moved v w
  have hkey : key.IsReordered moved :=
    .mapping (.swap _ _ _) (.cons (.atom _) (.cons (.atom _) .nil))
      (.cons (.atom _) (.cons (.atom _) .nil))
  have hmoved : moved.IsReordered moved :=
    .mapping (.refl _) (.cons (.atom _) (.cons (.atom _) .nil))
      (.cons (.atom _) (.cons (.atom _) .nil))
  -- With the keys made equal, the second value takes the place of the first one.
  have h : v.IsReordered w :=
    .mapping (.refl _) (.cons hkey (.cons hmoved .nil)) (.cons (.atom _) (.cons (.atom _) .nil))
  have hdigests : (run.infer "E" v).toOption.map (·.shape.digest) ≠
      (run.infer "E" w).toOption.map (·.shape.digest) := by decide +kernel
  rcases toBool_eq_true_iff.mp (show (run.infer "E" v).toBool = true by decide +kernel) with ⟨t, ht⟩
  rcases toBool_eq_true_iff.mp (show (run.infer "E" w).toBool = true by decide +kernel) with ⟨u, hu⟩
  rw [ht, hu] at hdigests
  exact ⟨h, by decide +kernel, t, u, ht, hu, fun heq => hdigests (congrArg some heq)⟩

/-- A constructor that has a mapping spelled as its text looks at the order of entries. -/
theorem shape_ne_of_isReordered_text :
    let spelled : Constructor := fun name v => .ok (.scalar name v ⟨v.keyText, none⟩)
    let b : Builder := { supplied := fun kind => if kind = .mapping then some spelled else none }
    let v := Value.mapping [(.str "a", .int 1), (.str "b", .str "x")]
    let w := Value.mapping [(.str "b", .str "x"), (.str "a", .int 1)]
    v.IsReordered w ∧ v.HasUniqueKeys ∧ w.HasUniqueKeys ∧
      ∃ t u, b.infer "E" v = .ok t ∧ b.infer "E" w = .ok u ∧ t.shape.digest ≠ u.shape.digest := by
  intro spelled b v w
  have h : v.IsReordered w :=
    .mapping (.swap _ _ _) (.cons (.atom _) (.cons (.atom _) .nil))
      (.cons (.atom _) (.cons (.atom _) .nil))
  exact ⟨h, by decide +kernel, by decide +kernel, _, _, rfl, rfl, by decide +kernel⟩

end Reordered

end Builder

end TypeSketch
