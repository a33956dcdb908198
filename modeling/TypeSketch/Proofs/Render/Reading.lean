import TypeSketch.Proofs.Render.Spelled

/-!
# Reading Types Back

What is written for a node determines the type that the node stands for, once it is known
what the names of declarations in it stand for. The recursion goes down the two nodes in
step as long as both are written out; where it meets two names of declarations, they are
equal, and the types of the nodes that they are the names of are taken for granted.

A union is where the two nodes part: the members are in the order of their texts, repeated
ones are gone, and so are absorbed integers. So the children of the nodes are matched as
sets, and absorbed on both sides.

## Theorems

* `TypeTree.exists_use_of_members_eq`: Children behind the members of one union.
* `TypeTree.sameSets_of_union_eq`: Children of one union are of the same types.
* `TypeTree.same_expand_of_spell`, `TypeTree.same_expand_of_rows`: What is written out
  determines the type, if it does so for the children.
* `TypeTree.same_expand_of_use`: What stands where a node is used determines the type.
* `TypeTree.same_expand_of_declaration`: A declaration determines the type.
-/

namespace TypeSketch

/-- The members of an absorbed set of names. -/
theorem NameSet.mem_absorbIntegers {names : NameSet} {n : String} :
    n ∈ names.absorbIntegers ↔ n ∈ names ∧ ("float" ∈ names → n ≠ "int") := by
  have herase : n ∈ names.erase "int" ↔ n ∈ names ∧ n ≠ "int" := by
    change n ∈ names.names.filter (· ≠ "int") ↔ _
    rw [List.mem_filter, decide_eq_true_eq]
    rfl
  rw [absorbIntegers]
  split
  · next hfloat =>
    have hmem : "float" ∈ names := contains_iff.mp hfloat
    simp only [herase, hmem, forall_const]
  · next hfloat =>
    rw [contains_iff] at hfloat
    simp only [hfloat, false_implies, and_true]

namespace TypeTree

open Naming

variable {s : Strategies} {c d : TypeTree}

/-- How nodes are written where they are used. -/
def uses (s : Strategies) (trees : List TypeTree) : List TypeExpr :=
  (trees.map (spellUse s)).map (·.written)

theorem mem_uses {trees : List TypeTree} {e : TypeExpr} :
    e ∈ uses s trees ↔ ∃ c ∈ trees, (c.spellUse s).written = e := by
  rw [uses, List.map_map, List.mem_map]
  rfl

section Unions

variable {cs ds : List TypeTree}

/-- Behind a member of a union there are children on both sides, if it is a member of
    both. -/
theorem exists_use_of_members_eq (hcs : ∀ c ∈ cs, IsSpellable s c ∧ c.name ∉ words)
    (hds : ∀ d ∈ ds, IsSpellable s d ∧ d.name ∉ words)
    (h : Spelling.members (uses s cs) = Spelling.members (uses s ds)) {e : Expansion}
    (he : e ∈ Expansion.absorbIntegers (cs.map expand)) :
    ∃ c ∈ cs, c.expand = e ∧ ∃ d ∈ ds, d.expand ∈ Expansion.absorbIntegers (ds.map expand) ∧
      (c.spellUse s).written = (d.spellUse s).written := by
  have hfloat : "float" ∈ scalarNames := by decide
  have hint : "int" ∈ scalarNames := by decide
  rw [Expansion.mem_absorbIntegers] at he
  rcases he with ⟨hmem, habsorbed⟩
  rcases List.mem_map.mp hmem with ⟨c, hc, rfl⟩
  rcases hcs c hc with ⟨hspell, hname⟩
  -- The child is no absorbed integer, so its text is in the union.
  have hkept : (∃ f ∈ uses s cs, f.text = "float") → (c.spellUse s).written.text ≠ "int" := by
    rintro ⟨f, hf, htext⟩ heq
    rcases mem_uses.mp hf with ⟨c', hc', rfl⟩
    rw [(hcs c' hc').1.text_eq_iff (hcs c' hc').2 hfloat] at htext
    rw [hspell.text_eq_iff hname hint, habsorbed ⟨_, List.mem_map_of_mem hc', htext⟩] at heq
    exact Bool.false_ne_true heq
  rcases Spelling.exists_mem_members (mem_uses.mpr ⟨c, hc, rfl⟩) hkept with ⟨e', he', htext⟩
  rcases mem_uses.mp (Spelling.mem_of_mem_members he').1 with ⟨c', hc', heq⟩
  have hsame : e' = (c.spellUse s).written := by
    rw [← heq] at htext ⊢
    exact TypeExpr.text_injective (hcs c' hc').1.isPlain_spellUse hspell.isPlain_spellUse htext
  -- On the other side the text belongs to a child as well.
  rw [hsame, h] at he'
  rcases Spelling.mem_of_mem_members he' with ⟨huse, hkept'⟩
  rcases mem_uses.mp huse with ⟨d, hd, hwritten⟩
  refine ⟨c, hc, rfl, d, hd, ?_, hwritten.symm⟩
  rw [Expansion.mem_absorbIntegers]
  refine ⟨List.mem_map_of_mem hd, fun ⟨other, hother, hscalar⟩ => ?_⟩
  rcases List.mem_map.mp hother with ⟨d', hd', rfl⟩
  rw [← (hds d' hd').1.text_eq_iff (hds d' hd').2 hfloat] at hscalar
  rw [← Bool.not_eq_true, ← (hds d hd).1.text_eq_iff (hds d hd).2 hint, hwritten]
  exact hkept' ⟨_, mem_uses.mpr ⟨d', hd', rfl⟩, hscalar⟩

/-- Children that are written as one union are of the same types. -/
theorem sameSets_of_union_eq (hcs : ∀ c ∈ cs, IsSpellable s c ∧ c.name ∉ words)
    (hds : ∀ d ∈ ds, IsSpellable s d ∧ d.name ∉ words)
    (ih : ∀ c ∈ cs, ∀ d ∈ ds, (c.spellUse s).written = (d.spellUse s).written →
      c.expand.same d.expand = true)
    (h : (Spelling.union (uses s cs)).written = (Spelling.union (uses s ds)).written) :
    Expansion.SameSets (Expansion.absorbIntegers (cs.map expand))
      (Expansion.absorbIntegers (ds.map expand)) := by
  -- What stands in a union is not a union itself, so its members can be told from its text.
  have hmember : ∀ {trees : List TypeTree}, (∀ c ∈ trees, IsSpellable s c ∧ c.name ∉ words) →
      ∀ e ∈ uses s trees, e.IsMember := by
    intro trees htrees e he
    rcases mem_uses.mp he with ⟨c, hc, rfl⟩
    exact (htrees c hc).1.isMember (htrees c hc).2
  have hmembers := Spelling.members_eq_of_union_eq (hmember hcs) (hmember hds) h
  constructor
  · intro e he
    rcases exists_use_of_members_eq hcs hds hmembers he with ⟨c, hc, rfl, d, hd, hkept, heq⟩
    exact ⟨d.expand, hkept, ih c hc d hd heq⟩
  · intro e he
    rcases exists_use_of_members_eq hds hcs hmembers.symm he with ⟨d, hd, rfl, c, hc, hkept, heq⟩
    exact ⟨c.expand, hkept, ih c hc d hd heq.symm⟩

/-- Types of keys that are written as one union are the same. -/
theorem absorbIntegers_eq_of_union_eq {ks ls : List String} (hks : ∀ k ∈ ks, k ∈ keyTypeNames)
    (hls : ∀ l ∈ ls, l ∈ keyTypeNames)
    (h : (Spelling.union (ks.map .name)).written = (Spelling.union (ls.map .name)).written) :
    (NameSet.ofList ks).absorbIntegers = (NameSet.ofList ls).absorbIntegers := by
  have hany : "Any" ∉ keyTypeNames := by decide
  -- Any is no key type, so no member of the union is the one that stands for all types.
  have hmember : ∀ {ks : List String}, (∀ k ∈ ks, k ∈ keyTypeNames) →
      ∀ e ∈ ks.map TypeExpr.name, e.IsMember := by
    intro ks hks
    refine List.forall_mem_map.mpr fun k hk => ⟨fun heq => hany ?_, fun _ => TypeExpr.noConfusion⟩
    rw [← TypeExpr.name.inj heq]
    exact hks k hk
  have hname : ∀ {ks : List String} {n : String}, TypeExpr.name n ∈ ks.map TypeExpr.name ↔ n ∈ ks := by
    intro ks n
    simp only [List.mem_map, TypeExpr.name.injEq, exists_eq_right]
  have hfloat : ∀ {ks : List String},
      (∃ f ∈ ks.map TypeExpr.name, f.text = "float") ↔ "float" ∈ ks := by
    intro ks
    constructor
    · rintro ⟨f, hf, htext⟩
      rcases List.mem_map.mp hf with ⟨k, hk, rfl⟩
      change k = "float" at htext
      rw [← htext]
      exact hk
    · exact fun hk => ⟨.name "float", List.mem_map_of_mem hk, rfl⟩
  -- The absorbed names are those whose types are members.
  have hkept : ∀ {ks : List String} {n : String},
      n ∈ (NameSet.ofList ks).absorbIntegers ↔ TypeExpr.name n ∈ Spelling.members (ks.map .name) := by
    intro ks n
    rw [NameSet.mem_absorbIntegers, NameSet.mem_ofList, NameSet.mem_ofList]
    constructor
    · rintro ⟨hn, habsorbed⟩
      rcases Spelling.exists_mem_members (hname.mpr hn) (fun hf => habsorbed (hfloat.mp hf)) with
        ⟨e, he, htext⟩
      rcases List.mem_map.mp (Spelling.mem_of_mem_members he).1 with ⟨k, _, rfl⟩
      change k = n at htext
      rw [← htext]
      exact he
    · intro hn
      rcases Spelling.mem_of_mem_members hn with ⟨hmem, habsorbed⟩
      exact ⟨hname.mp hmem, fun hf => habsorbed (hfloat.mpr hf)⟩
  -- One union has the same members on both sides.
  refine NameSet.ext_mem fun n => ?_
  rw [hkept, hkept, Spelling.members_eq_of_union_eq (hmember hks) (hmember hls) h]

end Unions

section Containers

theorem mappingConstructor_ne (style : DictStyle) (kind : ElementKind) :
    mappingConstructor style ≠ sequenceConstructor s kind := by
  have hdisjoint : ∀ constructor ∈ mappingConstructors, constructor ∉ sequenceConstructors := by decide
  intro h
  refine hdisjoint _ (mappingConstructor_mem style) ?_
  rw [h]
  exact sequenceConstructor_mem s kind

/-- The kind of sequences that a constructor stands for, tuples being of this size. -/
def kindNamed (size : TupleSize) (constructor : String) : ElementKind :=
  if constructor = "Set" then .set false
  else if constructor = "FrozenSet" then .set true
  else if constructor = "Iterator" then .iterator
  else if constructor = "Tuple" then .tuple size
  else .list

/-- The constructor tells the kind of a sequence, up to the size of tuples. -/
theorem kindNamed_sequenceConstructor {kind : ElementKind}
    (hsize : ∀ size, kind = .tuple size → size = s.tupleSize) :
    kindNamed s.tupleSize (sequenceConstructor s kind) = kind := by
  cases kind with
  | list =>
    change kindNamed s.tupleSize (listConstructor s.listStyle) = .list
    cases s.listStyle <;> simp [kindNamed, listConstructor]
  | set frozen => cases frozen <;> simp [kindNamed, sequenceConstructor]
  | iterator => simp [kindNamed, sequenceConstructor]
  | tuple size =>
    rw [hsize size rfl]
    simp [kindNamed, sequenceConstructor]

theorem spellSequence_eq_apply (kind : ElementKind) (elements : List (Spelling TypeExpr)) :
    ∃ arguments, (spellSequence s kind elements).written =
      .apply (sequenceConstructor s kind) arguments := by
  by_cases hfixed : kind = .tuple .fixed
  · subst hfixed
    exact ⟨_, rfl⟩
  · exact ⟨_, spellSequence_of_ne_fixed hfixed elements⟩

/-- The items of a tuple of fixed size can be told from what is written for none. -/
theorem uses_eq_of_items_eq {cs ds : List TypeTree} (hcs : ∀ c ∈ cs, IsSpellable s c ∧ c.name ∉ words)
    (hds : ∀ d ∈ ds, IsSpellable s d ∧ d.name ∉ words)
    (h : (spellSequence s (.tuple .fixed) (cs.map (spellUse s))).written =
      (spellSequence s (.tuple .fixed) (ds.map (spellUse s))).written) : uses s cs = uses s ds := by
  -- No items are written as `Any` and dots. An item is never written as `Any`.
  have hitems : ∀ cs : List TypeTree, (spellSequence s (.tuple .fixed) (cs.map (spellUse s))).written =
      .apply "Tuple" (if cs = [] then [.name "Any", .name "..."] else uses s cs) := by
    intro cs
    cases cs with
    | nil => rfl
    | cons c rest => rw [spellSequence_fixed, ← uses]; simp [uses, Spelling.listed]
  have hany : ∀ {cs : List TypeTree}, (∀ c ∈ cs, IsSpellable s c ∧ c.name ∉ words) → cs ≠ [] →
      uses s cs ≠ [.name "Any", .name "..."] := by
    intro cs hcs hne h
    cases cs with
    | nil => contradiction
    | cons c rest =>
      rcases hcs c List.mem_cons_self with ⟨hspell, hname⟩
      exact (hspell.isMember hname).1 (List.cons.inj h).1
  -- So the two lists are both empty, or both are read item by item.
  rw [hitems, hitems] at h
  have hlist := (TypeExpr.apply.inj h).2
  by_cases hc : cs = [] <;> by_cases hd : ds = []
  · rw [hc, hd]
  · rw [if_pos hc, if_neg hd] at hlist
    exact absurd hlist.symm (hany hds hd)
  · rw [if_neg hc, if_pos hd] at hlist
    exact absurd hlist (hany hcs hc)
  · rw [if_neg hc, if_neg hd] at hlist
    exact hlist

theorem spell_generic (name : String) (v : Value) (height : Nat) (shape : Shape)
    (fields : List (Value × TypeTree)) :
    (spell s (.mapping name v .generic height shape fields)).written =
      .apply (mappingConstructor s.dictStyle)
        [(Spelling.union ((fields.map (·.1.typeName)).map .name)).written,
          (Spelling.union (uses s (fields.map (·.2)))).written] := by
  rw [spell, spellFieldUses_eq_map]
  rfl

theorem spell_sequence (name : String) (v : Value) (kind : ElementKind) (height : Nat) (shape : Shape)
    (elements : List TypeTree) :
    (spell s (.sequence name v kind height shape elements)).written =
      (spellSequence s kind (elements.map (spellUse s))).written := by
  rw [spell, spellElementUses_eq_map]

/-- Generic mappings that are written alike are of the same type. -/
theorem same_expand_of_generic {name name' : String} {v v' : Value} {height height' : Nat}
    {shape shape' : Shape} {fields fields' : List (Value × TypeTree)}
    (hc : IsSpellable s (.mapping name v .generic height shape fields))
    (hd : IsSpellable s (.mapping name' v' .generic height' shape' fields'))
    (ih : ∀ c ∈ fields.map (·.2), ∀ d ∈ fields'.map (·.2),
      (c.spellUse s).written = (d.spellUse s).written → c.expand.same d.expand = true)
    (h : (spell s (.mapping name v .generic height shape fields)).written =
      (spell s (.mapping name' v' .generic height' shape' fields')).written) :
    (expand (.mapping name v .generic height shape fields)).same
      (expand (.mapping name' v' .generic height' shape' fields')) = true := by
  rw [spell_generic, spell_generic] at h
  -- The first argument gives the types of the keys, and the second those of the values.
  rcases List.cons.inj (TypeExpr.apply.inj h).2 with ⟨hkeys, hrest⟩
  have hcs : ∀ c ∈ fields.map (·.2), IsSpellable s c ∧ c.name ∉ words := hc.forall_children
  have hds : ∀ d ∈ fields'.map (·.2), IsSpellable s d ∧ d.name ∉ words := hd.forall_children
  have hvalues := sameSets_of_union_eq hcs hds ih (List.cons.inj hrest).1
  rcases hc.builtin with _ | ⟨_, hknown⟩
  rcases hd.builtin with _ | ⟨_, hknown'⟩
  have hheads := absorbIntegers_eq_of_union_eq (List.forall_mem_map.mpr (hknown rfl))
    (List.forall_mem_map.mpr (hknown' rfl)) hkeys
  simp only [expand, Expansion.mapping, expandFields_eq_map, List.map_map, hheads] at hvalues ⊢
  exact Expansion.same_node_members hvalues

/-- Sequences that are written alike are of the same type. -/
theorem same_expand_of_sequence {name name' : String} {v v' : Value} {kind kind' : ElementKind}
    {height height' : Nat} {shape shape' : Shape} {elements elements' : List TypeTree}
    (hc : IsSpellable s (.sequence name v kind height shape elements))
    (hd : IsSpellable s (.sequence name' v' kind' height' shape' elements'))
    (ih : ∀ c ∈ elements, ∀ d ∈ elements',
      (c.spellUse s).written = (d.spellUse s).written → c.expand.same d.expand = true)
    (h : (spell s (.sequence name v kind height shape elements)).written =
      (spell s (.sequence name' v' kind' height' shape' elements')).written) :
    (expand (.sequence name v kind height shape elements)).same
      (expand (.sequence name' v' kind' height' shape' elements')) = true := by
  have hcs : ∀ c ∈ elements, IsSpellable s c ∧ c.name ∉ words := hc.forall_children
  have hds : ∀ d ∈ elements', IsSpellable s d ∧ d.name ∉ words := hd.forall_children
  -- The constructor gives the kind. The size of tuples is one for all nodes of a tree.
  have hkind : kind = kind' := by
    rcases hc.coherent with _ | _ | ⟨_, hsize, _, _⟩
    rcases hd.coherent with _ | _ | ⟨_, hsize', _, _⟩
    rw [spell_sequence, spell_sequence] at h
    rcases spellSequence_eq_apply (s := s) kind (elements.map (spellUse s)) with ⟨_, heq⟩
    rcases spellSequence_eq_apply (s := s) kind' (elements'.map (spellUse s)) with ⟨_, heq'⟩
    rw [heq, heq'] at h
    rw [← kindNamed_sequenceConstructor hsize, (TypeExpr.apply.inj h).1,
      kindNamed_sequenceConstructor hsize']
  subst hkind
  rw [spell_sequence, spell_sequence] at h
  rw [expand, expand, expandElements_eq_map, expandElements_eq_map]
  by_cases hfixed : kind = .tuple .fixed
  · -- The items are in order, so they are matched by their positions.
    subst hfixed
    have huses := uses_eq_of_items_eq hcs hds h
    simp only [uses, List.map_map] at huses
    have hlength : elements.length = elements'.length := by
      simpa only [List.length_map] using congrArg List.length huses
    refine Expansion.same_positions (by simpa only [List.length_map] using hlength) fun i hi hi' => ?_
    rw [List.length_map] at hi hi'
    rw [List.getElem_map, List.getElem_map]
    refine ih _ (List.getElem_mem hi) _ (List.getElem_mem hi') ?_
    have hitem := congrArg (·[i]?) huses
    simpa [hi, hi'] using hitem
  -- All other sequences are written with one union of their items.
  · rw [spellSequence_of_ne_fixed hfixed, spellSequence_of_ne_fixed hfixed] at h
    exact Expansion.same_members hfixed
      (sameSets_of_union_eq hcs hds ih (List.cons.inj (TypeExpr.apply.inj h).2).1)

/-- Nodes that are written out alike are of the same type. -/
theorem same_expand_of_spell (hc : IsSpellable s c) (hd : IsSpellable s d)
    (hrecord : c.isRecord = false) (hrecord' : d.isRecord = false)
    (ih : ∀ c' ∈ c.children, ∀ d' ∈ d.children,
      (c'.spellUse s).written = (d'.spellUse s).written → c'.expand.same d'.expand = true)
    (h : (c.spell s).written = (d.spell s).written) : c.expand.same d.expand = true := by
  -- A scalar type is written as a name, and a container as a constructor with arguments.
  have hscalar : ∀ {c : TypeTree} {n : String}, c.isRecord = false →
      (c.spell s).written = .name n → ∃ name v type, c = .scalar name v type := by
    intro c n hrecord hname
    by_contra hnone
    simp only [not_exists] at hnone
    rcases spell_eq_apply hrecord hnone with ⟨_, _, _, happly⟩
    rw [happly] at hname
    exact TypeExpr.noConfusion hname
  -- The kinds of the two nodes agree, since their constructors do.
  cases c with
  | scalar name v type =>
    rcases hscalar hrecord' h.symm with ⟨name', v', type', rfl⟩
    rw [expand, expand, TypeExpr.name.inj h]
    exact Expansion.same_refl _
  | mapping name v form height shape fields =>
    cases form with
    | record profile => contradiction
    | generic =>
      cases d with
      | scalar name' v' type' =>
        rcases hscalar hrecord h with ⟨_, _, _, heq⟩
        contradiction
      | mapping name' v' form' height' shape' fields' =>
        cases form' with
        | record profile => contradiction
        | generic => exact same_expand_of_generic hc hd ih h
      | sequence name' v' kind' height' shape' elements' =>
        rcases spellSequence_eq_apply (s := s) kind' (elements'.map (spellUse s)) with ⟨_, heq⟩
        rw [spell_generic, spell_sequence, heq] at h
        exact absurd (TypeExpr.apply.inj h).1 (mappingConstructor_ne _ _)
  | sequence name v kind height shape elements =>
    cases d with
    | scalar name' v' type' =>
      rcases hscalar hrecord h with ⟨_, _, _, heq⟩
      contradiction
    | mapping name' v' form' height' shape' fields' =>
      cases form' with
      | record profile => contradiction
      | generic =>
        rcases spellSequence_eq_apply (s := s) kind (elements.map (spellUse s)) with ⟨_, heq⟩
        rw [spell_generic, spell_sequence, heq] at h
        exact absurd (TypeExpr.apply.inj h).1.symm (mappingConstructor_ne _ _)
    | sequence name' v' kind' height' shape' elements' => exact same_expand_of_sequence hc hd ih h

end Containers

section Records

/-- The type of a field with what says that it is read-only or may be missing. -/
def wrapField (s : Strategies) (optional : Bool) (type : TypeExpr) : TypeExpr :=
  let type := if s.readOnly then .apply "ReadOnly" [type] else type
  if optional then .apply "NotRequired" [type] else type

theorem spellField_written (profile : RecordProfile) (key : Value) (c : TypeTree) :
    (spellField s profile key c).written =
      (key.keyText,
        wrapField s (profile.optionalFields.contains key.keyText) (c.spellUse s).written) := by
  unfold spellField wrapField
  dsimp only
  split <;> split <;> rfl

/-- A wrapped type tells whether the field may be missing. -/
theorem wrapField_inj {optional optional' : Bool} {e f : TypeExpr}
    (he : ∀ arguments, e ≠ .apply "NotRequired" arguments)
    (hf : ∀ arguments, f ≠ .apply "NotRequired" arguments)
    (h : wrapField s optional e = wrapField s optional' f) : optional = optional' ∧ e = f := by
  -- Below the mark of an optional field there is at most that of a read-only one.
  have hread : ∀ {e : TypeExpr}, (∀ arguments, e ≠ .apply "NotRequired" arguments) →
      ∀ arguments, (if s.readOnly then .apply "ReadOnly" [e] else e) ≠
        TypeExpr.apply "NotRequired" arguments := by
    intro e he arguments
    split
    · intro heq
      exact absurd (TypeExpr.apply.inj heq).1 (by decide)
    · exact he arguments
  have hinner : (if s.readOnly then TypeExpr.apply "ReadOnly" [e] else e) =
      (if s.readOnly then .apply "ReadOnly" [f] else f) → e = f := by
    intro heq
    split at heq
    · exact (List.cons.inj (TypeExpr.apply.inj heq).2).1
    · exact heq
  -- If only one of the fields is optional, only one text begins with its mark.
  unfold wrapField at h
  cases optional <;> cases optional'
  · exact ⟨rfl, hinner h⟩
  · exact absurd h (hread he _)
  · exact absurd h.symm (hread hf _)
  · exact ⟨rfl, hinner (List.cons.inj (TypeExpr.apply.inj h).2).1⟩

theorem use_ne_notRequired (h : IsBuiltin c) (arguments : List TypeExpr) :
    (c.spellUse s).written ≠ .apply "NotRequired" arguments := by
  have hconstructors : "NotRequired" ∉ constructors := by decide
  intro heq
  rcases spellUse_cases (s := s) h with ⟨_, hw, _⟩ | ⟨_, r, _, hw, _⟩ | ⟨_, ⟨_, hmem, _, hw⟩, _⟩
  · rw [hw] at heq
    exact TypeExpr.noConfusion heq
  · rw [hw] at heq
    exact TypeExpr.noConfusion heq
  · rw [hw] at heq
    rw [(TypeExpr.apply.inj heq).1] at hmem
    exact hconstructors hmem

variable {profile profile' : RecordProfile} {fields fields' : List (Value × TypeTree)}

/-- Each field of a record is one of the other record, if the two are written alike. -/
theorem exists_field_of_rows_eq (hfields : ∀ f ∈ fields, IsBuiltin f.2)
    (hfields' : ∀ g ∈ fields', IsBuiltin g.2) (h : rows s profile fields = rows s profile' fields')
    {f : Value × TypeTree} (hf : f ∈ fields) :
    ∃ g ∈ fields', f.1.keyText = g.1.keyText ∧
      profile.optionalFields.contains f.1.keyText = profile'.optionalFields.contains g.1.keyText ∧
      (f.2.spellUse s).written = (g.2.spellUse s).written := by
  -- The row of the field is among those of the other record.
  have hrow : (spellField s profile f.1 f.2).written ∈ rows s profile' fields' := by
    rw [← h]
    exact List.mem_map_of_mem hf
  rcases List.mem_map.mp hrow with ⟨g, hg, heq⟩
  rw [spellField_written, spellField_written, Prod.mk.injEq] at heq
  rcases wrapField_inj (use_ne_notRequired (hfields' g hg)) (use_ne_notRequired (hfields f hf)) heq.2
    with ⟨hoptional, huse⟩
  exact ⟨g, hg, heq.1.symm, hoptional.symm, huse.symm⟩

/-- Records that are written alike are of the same type. -/
theorem same_expand_of_rows {name name' : String} {v v' : Value} {height height' : Nat}
    {shape shape' : Shape} (hc : IsBuiltin (.mapping name v (.record profile) height shape fields))
    (hd : IsBuiltin (.mapping name' v' (.record profile') height' shape' fields'))
    (ih : ∀ c ∈ fields.map (·.2), ∀ d ∈ fields'.map (·.2),
      (c.spellUse s).written = (d.spellUse s).written → c.expand.same d.expand = true)
    (h : rows s profile fields = rows s profile' fields') :
    (expand (.mapping name v (.record profile) height shape fields)).same
      (expand (.mapping name' v' (.record profile') height' shape' fields')) = true := by
  rcases hc with _ | ⟨hfields, _⟩
  rcases hd with _ | ⟨hfields', _⟩
  rw [expand, expand, expandFields_eq_map, expandFields_eq_map, List.map_map, List.map_map]
  -- A field on one side has a field on the other side with the same key, and the other way round.
  refine Expansion.same_record (List.forall_mem_map.mpr fun f hf => ?_)
    (List.forall_mem_map.mpr fun g hg => ?_)
  · rcases exists_field_of_rows_eq hfields hfields' h hf with ⟨g, hg, hkey, hoptional, huse⟩
    refine ⟨_, List.mem_map_of_mem hg, ?_, ih _ (List.mem_map_of_mem hf) _ (List.mem_map_of_mem hg) huse⟩
    dsimp only [Function.comp]
    rw [hoptional, hkey]
  · rcases exists_field_of_rows_eq hfields' hfields h.symm hg with ⟨f, hf, hkey, hoptional, huse⟩
    refine ⟨_, List.mem_map_of_mem hf, ?_,
      ih _ (List.mem_map_of_mem hf) _ (List.mem_map_of_mem hg) huse.symm⟩
    dsimp only [Function.comp]
    rw [hoptional, hkey]

end Records

section Declarations

theorem undocumented_record (name : String) (v : Value) (profile : RecordProfile) (height : Nat)
    (shape : Shape) (fields : List (Value × TypeTree)) :
    (spellDeclaration s (.mapping name v (.record profile) height shape fields)).written.undocumented =
      if profile.functional then .functionalRecord name (rows s profile fields)
      else .record name none (rows s profile fields) := by
  rw [spellDeclaration_record]
  split <;> rfl

/-- Nodes with one declaration are of the same type, if that is so for their children where
    these are used. -/
theorem same_expand_of_declaration_step (hc : IsSpellable s c) (hd : IsSpellable s d)
    (ih : ∀ c' ∈ c.children, ∀ d' ∈ d.children,
      (c'.spellUse s).written = (d'.spellUse s).written → c'.expand.same d'.expand = true)
    (h : (c.spellDeclaration s).written.undocumented = (d.spellDeclaration s).written.undocumented) :
    c.expand.same d.expand = true := by
  -- A record is declared as a class or by a call, and everything else as an alias.
  have halias : ∀ {t u : TypeTree}, t.isRecord = true → u.isRecord = false →
      (t.spellDeclaration s).written.undocumented ≠ (u.spellDeclaration s).written.undocumented := by
    intro t u ht hu heq
    rcases exists_eq_of_isRecord ht with ⟨_, _, profile, _, _, _, rfl⟩
    rw [undocumented_record, spellDeclaration_of_not_record hu] at heq
    split at heq <;> exact Declaration.noConfusion heq
  by_cases hrecord : c.isRecord = true <;> by_cases hrecord' : d.isRecord = true
  · rcases exists_eq_of_isRecord hrecord with ⟨_, _, profile, _, _, _, rfl⟩
    rcases exists_eq_of_isRecord hrecord' with ⟨_, _, profile', _, _, _, rfl⟩
    refine same_expand_of_rows hc.builtin hd.builtin ih ?_
    rw [undocumented_record, undocumented_record] at h
    -- Both records have one syntax, and the rows can be read off in either.
    split at h <;> split at h
    · exact (Declaration.functionalRecord.inj h).2
    · exact Declaration.noConfusion h
    · exact Declaration.noConfusion h
    · exact (Declaration.record.inj h).2.2
  · exact absurd h (halias hrecord (Bool.not_eq_true _ ▸ hrecord'))
  · exact absurd h.symm (halias hrecord' (Bool.not_eq_true _ ▸ hrecord))
  · have hplain : c.isRecord = false := Bool.not_eq_true _ ▸ hrecord
    have hplain' : d.isRecord = false := Bool.not_eq_true _ ▸ hrecord'
    rw [spellDeclaration_of_not_record hplain, spellDeclaration_of_not_record hplain'] at h
    exact same_expand_of_spell hc hd hplain hplain' ih (Declaration.aliasOf.inj h).2

/-- References of one name stand for one type. -/
def AgreeOn (left right : List TypeTree) : Prop :=
  ∀ x ∈ left, ∀ y ∈ right, x.name = y.name → x.expand.same y.expand = true

theorem AgreeOn.children (h : AgreeOn (c.references s) (d.references s)) :
    ∀ c' ∈ c.children, ∀ d' ∈ d.children, AgreeOn (c'.useReferences s) (d'.useReferences s) := by
  intro c' hc' d' hd' x hx y hy
  rw [references_eq_flatMap, references_eq_flatMap] at h
  exact h x (List.mem_flatMap.mpr ⟨c', hc', hx⟩) y (List.mem_flatMap.mpr ⟨d', hd', hy⟩)

/-- Nodes that are used alike are of the same type, if what they refer to is. -/
theorem same_expand_of_use (c : TypeTree) : ∀ d, IsSpellable s c ∧ c.name ∉ words →
    IsSpellable s d ∧ d.name ∉ words → AgreeOn (c.useReferences s) (d.useReferences s) →
      (c.spellUse s).written = (d.spellUse s).written → c.expand.same d.expand = true := by
  have hscalar : ∀ r ∈ scalarNames, r ∈ words :=
    fun r hr => List.mem_append_left _ (List.mem_append_left _ hr)
  induction c using induct_children with
  | node c ih =>
    intro d ⟨hc, hname⟩ ⟨hd, hname'⟩ hagree h
    -- Where the two nodes are not written in the same way, the texts differ.
    rcases spellUse_cases (s := s) hc.builtin with ⟨haliased, hw, _⟩ | ⟨haliased, r, hr, hw, hexpand⟩ |
        ⟨haliased, ⟨_, _, _, hw⟩, _⟩ <;>
      rcases spellUse_cases (s := s) hd.builtin with ⟨haliased', hw', _⟩ |
        ⟨haliased', r', hr', hw', hexpand'⟩ | ⟨haliased', ⟨_, _, _, hw'⟩, _⟩
    · -- Both are references.
      rw [useReferences, useReferences, if_pos haliased, if_pos haliased'] at hagree
      rw [hw, hw'] at h
      exact hagree c (List.mem_singleton_self c) d (List.mem_singleton_self d) (TypeExpr.name.inj h)
    -- A reference and a scalar: no node has the name of a scalar type.
    · rw [hw, hw'] at h
      rw [TypeExpr.name.inj h] at hname
      exact absurd (hscalar r' hr') hname
    -- A name has no arguments, so a node that is written out differs from the other two ways.
    · rw [hw, hw'] at h
      exact TypeExpr.noConfusion h
    · rw [hw, hw'] at h
      rw [← TypeExpr.name.inj h] at hname'
      exact absurd (hscalar r hr) hname'
    · rw [hw, hw'] at h
      rw [hexpand, hexpand', TypeExpr.name.inj h]
      exact Expansion.same_refl _
    · rw [hw, hw'] at h
      exact TypeExpr.noConfusion h
    · rw [hw, hw'] at h
      exact TypeExpr.noConfusion h
    · rw [hw, hw'] at h
      exact TypeExpr.noConfusion h
    · -- Both are written out.
      have hplain : ∀ {t : TypeTree}, t.isAliased s = false → t.isRecord = false := by
        intro t ht
        by_contra hrecord
        rw [isAliased_of_isRecord (Bool.not_eq_false _ ▸ hrecord)] at ht
        exact Bool.false_ne_true ht.symm
      rw [useReferences, useReferences, haliased, haliased', if_neg Bool.false_ne_true,
        if_neg Bool.false_ne_true] at hagree
      rw [spellUse, spellUse, haliased, haliased', if_neg Bool.false_ne_true,
        if_neg Bool.false_ne_true] at h
      refine same_expand_of_spell hc hd (hplain haliased) (hplain haliased') ?_ h
      intro c' hc' d' hd' huse
      exact ih c' hc' d' (hc.forall_children c' hc') (hd.forall_children d' hd')
        (hagree.children c' hc' d' hd') huse

/-- Nodes with one declaration are of the same type, if what it refers to is. -/
theorem same_expand_of_declaration (hc : IsSpellable s c) (hd : IsSpellable s d)
    (hagree : AgreeOn (c.references s) (d.references s))
    (h : (c.spellDeclaration s).written.undocumented = (d.spellDeclaration s).written.undocumented) :
    c.expand.same d.expand = true := by
  refine same_expand_of_declaration_step hc hd (fun c' hc' d' hd' huse => ?_) h
  exact same_expand_of_use c' d' (hc.forall_children c' hc') (hd.forall_children d' hd')
    (hagree.children c' hc' d' hd') huse

end Declarations

end TypeTree

end TypeSketch
