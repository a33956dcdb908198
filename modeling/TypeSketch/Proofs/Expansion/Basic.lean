import TypeSketch.Tree.Basic

/-!
# Expanded Types

What a tree stands for once names are out of the way: every node is replaced by its type
written out in full. The fields of a record have no order, and neither have the members
of a union; a tuple of fixed size has its items in order.

An expansion is a head and a list of parts, each with its role: a field, a position or
a member of a union. Two expansions are the same if their heads are equal and each part
of the one occurs in the other in its role. So the list of parts stands for a set, at
every depth, and an ordered list is the set of its items with their positions.

`ExpandedType` is the quotient by that relation. The relation is decided by a program,
so equality of expanded types is decidable as well.

## Main definitions

* `Expansion`: Types written out.
* `Expansion.same`: When two of them are one type.
* `Expansion.record`, `Expansion.mapping`, `Expansion.collection`: The kinds of types.
* `TypeTree.expand`, `TypeTree.expandedType`: The type that a node stands for.

## Theorems

* `Expansion.same_refl`, `Expansion.same_symm`, `Expansion.same_trans`: An equivalence.
* `Expansion.SameSets.absorbIntegers`: Absorption respects it.
* `Expansion.same_record`, `Expansion.same_mapping`, `Expansion.same_members`,
  `Expansion.same_positions`: Types of same parts.
-/

namespace TypeSketch

/-- The names without `int`, if `float` is among them. -/
def NameSet.absorbIntegers (s : NameSet) : NameSet :=
  if s.contains "float" then s.erase "int" else s

namespace Expansion

/-- What a type is without its parts. -/
inductive Head where
  | scalar (rendered : String)
  | record
  | mapping (keyTypes : NameSet)
  | collection (kind : ElementKind)
deriving Repr, DecidableEq

/-- What a part is to its type. -/
inductive Role where
  | field (name : String) (required : Bool)
  | position (index : Nat)
  | member
deriving Repr, DecidableEq

end Expansion

/-- A type written out in full. -/
inductive Expansion where
  | node (head : Expansion.Head) (parts : List (Expansion.Role × Expansion))
deriving Repr

namespace Expansion

instance : Inhabited Expansion := ⟨.node .record []⟩

def head : Expansion → Head
  | node head _ => head

/-- Whether a type is the scalar type of this name. -/
def isScalarNamed (name : String) (e : Expansion) : Bool :=
  e.head = .scalar name

/-- The types without `int`, if `float` is among them. -/
def absorbIntegers (types : List Expansion) : List Expansion :=
  if types.any (isScalarNamed "float") then types.filter (!isScalarNamed "int" ·) else types

/-- The members of a union. -/
def members (types : List Expansion) : List (Role × Expansion) :=
  (absorbIntegers types).map fun e => (.member, e)

/-- Types in order. -/
def positions (types : List Expansion) : List (Role × Expansion) :=
  types.zipIdx.map fun e => (.position e.2, e.1)

def scalar (rendered : String) : Expansion := .node (.scalar rendered) []

/-- The record with these fields: a name, whether the field is required, and its type. -/
def record (fields : List ((String × Bool) × Expansion)) : Expansion :=
  .node .record (fields.map fun f => (.field f.1.1 f.1.2, f.2))

/-- The mapping from keys of these types to values of these. -/
def mapping (keyTypes : NameSet) (values : List Expansion) : Expansion :=
  .node (.mapping keyTypes.absorbIntegers) (members values)

/-- The collection with elements of these types, or, if it is a tuple of fixed size, with
    one item of each of them in order. -/
def collection (kind : ElementKind) (elements : List Expansion) : Expansion :=
  .node (.collection kind)
    (match kind with
    | .tuple .fixed => positions elements
    | _ => members elements)

mutual

/-- Whether two expansions are one type. -/
def same : Expansion → Expansion → Bool
  | node head parts, node head' parts' =>
    head = head' && allAmong parts parts' && parts'.all (isAmong parts)

/-- Whether each part of the first list is in the second. -/
def allAmong : List (Role × Expansion) → List (Role × Expansion) → Bool
  | [], _ => true
  | (role, e) :: rest, parts =>
    parts.any (fun (role', e') => role = role' && same e e') && allAmong rest parts

/-- Whether a part is in a list. -/
def isAmong : List (Role × Expansion) → Role × Expansion → Bool
  | [], _ => false
  | (role, e) :: rest, part => role = part.1 && same e part.2 || isAmong rest part

end

/-- Induction on expansions, with the hypothesis for all parts. -/
@[elab_as_elim, induction_eliminator]
theorem induct {P : Expansion → Prop}
    (node : ∀ head parts, (∀ p ∈ parts, P p.2) → P (.node head parts)) : ∀ e, P e
  | .node head parts =>
    node head parts fun p hp =>
      have := List.sizeOf_lt_of_mem hp
      induct node p.2
termination_by e => sizeOf e
decreasing_by
  rcases p with ⟨role, e⟩
  simp only [Prod.mk.sizeOf_spec, Expansion.node.sizeOf_spec] at *
  omega

section Equivalence

theorem allAmong_iff {parts others : List (Role × Expansion)} :
    allAmong parts others = true ↔ ∀ p ∈ parts, ∃ q ∈ others, p.1 = q.1 ∧ same p.2 q.2 = true := by
  induction parts with
  | nil => simp only [allAmong, List.not_mem_nil, false_implies, implies_true]
  | cons p rest ih =>
    rw [allAmong, Bool.and_eq_true, ih, List.forall_mem_cons, List.any_eq_true]
    simp only [Bool.and_eq_true, decide_eq_true_eq]

theorem isAmong_iff {parts : List (Role × Expansion)} {q : Role × Expansion} :
    isAmong parts q = true ↔ ∃ p ∈ parts, p.1 = q.1 ∧ same p.2 q.2 = true := by
  induction parts with
  | nil => simp only [isAmong, Bool.false_eq_true, List.not_mem_nil, false_and, exists_false]
  | cons p rest ih =>
    rw [isAmong, Bool.or_eq_true, ih, Bool.and_eq_true, decide_eq_true_eq]
    simp only [List.mem_cons, exists_eq_or_imp]

/-- Expansions are the same if their heads are equal and each part of the one is a part of
    the other. -/
theorem same_node_iff {head head' : Head} {parts parts' : List (Role × Expansion)} :
    same (.node head parts) (.node head' parts') = true ↔ head = head' ∧
      (∀ p ∈ parts, ∃ q ∈ parts', p.1 = q.1 ∧ same p.2 q.2 = true) ∧
      (∀ q ∈ parts', ∃ p ∈ parts, p.1 = q.1 ∧ same p.2 q.2 = true) := by
  rw [same, Bool.and_eq_true, Bool.and_eq_true, decide_eq_true_eq, allAmong_iff, List.all_eq_true,
    and_assoc]
  simp only [isAmong_iff]

theorem same_refl (e : Expansion) : same e e = true := by
  induction e with
  | node head parts ih =>
    rw [same_node_iff]
    exact ⟨rfl, fun p hp => ⟨p, hp, rfl, ih p hp⟩, fun p hp => ⟨p, hp, rfl, ih p hp⟩⟩

theorem same_symm {a b : Expansion} (h : same a b = true) : same b a = true := by
  induction a generalizing b with
  | node head parts ih =>
    rcases b with ⟨head', parts'⟩
    rw [same_node_iff] at h ⊢
    rcases h with ⟨hhead, hleft, hright⟩
    refine ⟨hhead.symm, fun q hq => ?_, fun p hp => ?_⟩
    · rcases hright q hq with ⟨p, hp, hrole, hsame⟩
      exact ⟨p, hp, hrole.symm, ih p hp hsame⟩
    · rcases hleft p hp with ⟨q, hq, hrole, hsame⟩
      exact ⟨q, hq, hrole.symm, ih p hp hsame⟩

theorem same_trans {a b c : Expansion} (hab : same a b = true) (hbc : same b c = true) :
    same a c = true := by
  induction a generalizing b c with
  | node head parts ih =>
    rcases b with ⟨head', parts'⟩
    rcases c with ⟨head'', parts''⟩
    rw [same_node_iff] at hab hbc ⊢
    rcases hab with ⟨hhead, hleft, hright⟩
    rcases hbc with ⟨hhead', hleft', hright'⟩
    -- The induction is on the first expansion, so both directions go to the parts of that one.
    refine ⟨hhead.trans hhead', fun p hp => ?_, fun r hr => ?_⟩
    · rcases hleft p hp with ⟨q, hq, hrole, hsame⟩
      rcases hleft' q hq with ⟨r, hr, hrole', hsame'⟩
      exact ⟨r, hr, hrole.trans hrole', ih p hp hsame hsame'⟩
    · rcases hright' r hr with ⟨q, hq, hrole', hsame'⟩
      rcases hright q hq with ⟨p, hp, hrole, hsame⟩
      exact ⟨p, hp, hrole.trans hrole', ih p hp hsame hsame'⟩

theorem head_eq_of_same {a b : Expansion} (h : same a b = true) : a.head = b.head := by
  rcases a with ⟨head, parts⟩
  rcases b with ⟨head', parts'⟩
  exact (same_node_iff.mp h).1

instance setoid : Setoid Expansion where
  r a b := same a b = true
  iseqv := ⟨same_refl, same_symm, same_trans⟩

instance (a b : Expansion) : Decidable (a ≈ b) :=
  inferInstanceAs (Decidable (same a b = true))

end Equivalence

end Expansion

/-- A type written out, up to the order and number of its parts. -/
def ExpandedType : Type := Quotient Expansion.setoid

instance : DecidableEq ExpandedType :=
  inferInstanceAs (DecidableEq (Quotient Expansion.setoid))

namespace Expansion

section Congruence

/-- Each type of one list is in the other. -/
def SameSets (types others : List Expansion) : Prop :=
  (∀ e ∈ types, ∃ e' ∈ others, same e e' = true) ∧ ∀ e' ∈ others, ∃ e ∈ types, same e e' = true

theorem mem_absorbIntegers {types : List Expansion} {e : Expansion} :
    e ∈ absorbIntegers types ↔
      e ∈ types ∧
        ((∃ other ∈ types, isScalarNamed "float" other = true) → isScalarNamed "int" e = false) := by
  rw [absorbIntegers, ← List.any_eq_true]
  split
  · next h => simp only [List.mem_filter, Bool.not_eq_true', h, forall_const]
  · next h => simp only [h, Bool.false_eq_true, false_implies, and_true]

theorem absorbIntegers_idem (types : List Expansion) :
    absorbIntegers (absorbIntegers types) = absorbIntegers types := by
  -- If `float` is left, the integers are gone already.
  generalize hkept : absorbIntegers types = kept
  rw [absorbIntegers]
  split
  · next hany =>
    rw [List.filter_eq_self]
    intro e he
    rw [← hkept, mem_absorbIntegers] at he
    rcases List.any_eq_true.mp hany with ⟨other, hother, hfloat⟩
    rw [← hkept, mem_absorbIntegers] at hother
    rw [he.2 ⟨other, hother.1, hfloat⟩]
    rfl
  · rfl

theorem isScalarNamed_eq_of_same {name : String} {a b : Expansion} (h : same a b = true) :
    isScalarNamed name a = isScalarNamed name b := by
  rw [isScalarNamed, isScalarNamed, head_eq_of_same h]

theorem SameSets.absorbIntegers {types others : List Expansion} (h : SameSets types others) :
    SameSets (absorbIntegers types) (absorbIntegers others) := by
  -- Both lists have `float` or neither has, so the same integers are absorbed.
  have hfloat : (∃ e ∈ types, isScalarNamed "float" e = true) ↔
      ∃ e ∈ others, isScalarNamed "float" e = true := by
    constructor
    · rintro ⟨e, he, hscalar⟩
      rcases h.1 e he with ⟨e', he', hsame⟩
      exact ⟨e', he', by rw [← isScalarNamed_eq_of_same hsame, hscalar]⟩
    · rintro ⟨e', he', hscalar⟩
      rcases h.2 e' he' with ⟨e, he, hsame⟩
      exact ⟨e, he, by rw [isScalarNamed_eq_of_same hsame, hscalar]⟩
  constructor
  · intro e he
    rw [mem_absorbIntegers] at he
    rcases h.1 e he.1 with ⟨e', he', hsame⟩
    refine ⟨e', mem_absorbIntegers.mpr ⟨he', fun hf => ?_⟩, hsame⟩
    rw [← isScalarNamed_eq_of_same hsame, he.2 (hfloat.mpr hf)]
  · intro e' he'
    rw [mem_absorbIntegers] at he'
    rcases h.2 e' he'.1 with ⟨e, he, hsame⟩
    refine ⟨e, mem_absorbIntegers.mpr ⟨he, fun hf => ?_⟩, hsame⟩
    rw [isScalarNamed_eq_of_same hsame, he'.2 (hfloat.mp hf)]

theorem same_node_members {head : Head} {types others : List Expansion}
    (h : SameSets (absorbIntegers types) (absorbIntegers others)) :
    same (.node head (members types)) (.node head (members others)) = true := by
  rw [same_node_iff]
  refine ⟨rfl, ?_, ?_⟩
  · refine List.forall_mem_map.mpr fun e he => ?_
    rcases h.1 e he with ⟨e', he', hsame⟩
    exact ⟨(.member, e'), List.mem_map_of_mem he', rfl, hsame⟩
  · refine List.forall_mem_map.mpr fun e' he' => ?_
    rcases h.2 e' he' with ⟨e, he, hsame⟩
    exact ⟨(.member, e), List.mem_map_of_mem he, rfl, hsame⟩

theorem same_record {fields others : List ((String × Bool) × Expansion)}
    (hleft : ∀ f ∈ fields, ∃ g ∈ others, f.1 = g.1 ∧ same f.2 g.2 = true)
    (hright : ∀ g ∈ others, ∃ f ∈ fields, f.1 = g.1 ∧ same f.2 g.2 = true) :
    same (record fields) (record others) = true := by
  rw [record, record, same_node_iff]
  refine ⟨rfl, ?_, ?_⟩
  · refine List.forall_mem_map.mpr fun f hf => ?_
    rcases hleft f hf with ⟨g, hg, hfield, hsame⟩
    exact ⟨_, List.mem_map_of_mem hg, by rw [hfield], hsame⟩
  · refine List.forall_mem_map.mpr fun g hg => ?_
    rcases hright g hg with ⟨f, hf, hfield, hsame⟩
    exact ⟨_, List.mem_map_of_mem hf, by rw [hfield], hsame⟩

theorem same_mapping {keyTypes : NameSet} {values others : List Expansion}
    (h : SameSets (absorbIntegers values) (absorbIntegers others)) :
    same (mapping keyTypes values) (mapping keyTypes others) = true :=
  same_node_members h

theorem same_members {kind : ElementKind} (hkind : kind ≠ .tuple .fixed)
    {elements others : List Expansion}
    (h : SameSets (absorbIntegers elements) (absorbIntegers others)) :
    same (collection kind elements) (collection kind others) = true := by
  unfold collection
  split
  · contradiction
  · exact same_node_members h

theorem same_positions {elements others : List Expansion}
    (hlength : elements.length = others.length)
    (h : ∀ i (hi : i < elements.length) (hi' : i < others.length),
      same elements[i] others[i] = true) :
    same (collection (.tuple .fixed) elements) (collection (.tuple .fixed) others) = true := by
  rw [collection, collection, same_node_iff]
  -- The partner of a position is the same position on the other side.
  refine ⟨rfl, ?_, ?_⟩
  · refine List.forall_mem_map.mpr fun ⟨e, i⟩ hp => ?_
    rcases List.mem_zipIdx' hp with ⟨hi, he⟩
    have hi' : i < others.length := hlength ▸ hi
    refine ⟨(.position i, others[i]), ?_, rfl, ?_⟩
    · exact List.mem_map.mpr ⟨(others[i], i),
        List.mem_zipIdx_iff_getElem?.mpr (List.getElem?_eq_getElem hi'), rfl⟩
    · rw [he]
      exact h i hi hi'
  · refine List.forall_mem_map.mpr fun ⟨e, i⟩ hp => ?_
    rcases List.mem_zipIdx' hp with ⟨hi', he⟩
    have hi : i < elements.length := hlength ▸ hi'
    refine ⟨(.position i, elements[i]), ?_, rfl, ?_⟩
    · exact List.mem_map.mpr ⟨(elements[i], i),
        List.mem_zipIdx_iff_getElem?.mpr (List.getElem?_eq_getElem hi), rfl⟩
    · rw [he]
      exact h i hi hi'

end Congruence

end Expansion

namespace TypeTree

mutual

/-- The type that a node stands for, written out. -/
def expand : TypeTree → Expansion
  | scalar _ _ type => .scalar type.rendered
  | mapping _ _ (.record profile) _ _ fields =>
    .record ((expandFields fields).map fun (key, e) =>
      ((key.keyText, !profile.optionalFields.contains key.keyText), e))
  | mapping _ _ .generic _ _ fields =>
    .mapping (NameSet.ofList (fields.map (·.1.typeName))) ((expandFields fields).map (·.2))
  | sequence _ _ kind _ _ elements => .collection kind (expandElements elements)

def expandFields : List (Value × TypeTree) → List (Value × Expansion)
  | [] => []
  | (key, child) :: rest => (key, expand child) :: expandFields rest

def expandElements : List TypeTree → List Expansion
  | [] => []
  | child :: rest => expand child :: expandElements rest

end

/-- The type that a node stands for. -/
def expandedType (t : TypeTree) : ExpandedType := Quotient.mk _ t.expand

theorem expandFields_eq_map (fields : List (Value × TypeTree)) :
    expandFields fields = fields.map fun f => (f.1, f.2.expand) := by
  induction fields with
  | nil => rfl
  | cons f rest ih => rw [expandFields, ih, List.map_cons]

theorem expandElements_eq_map (elements : List TypeTree) :
    expandElements elements = elements.map expand := by
  induction elements with
  | nil => rfl
  | cons e rest ih => rw [expandElements, ih, List.map_cons]

theorem expandedType_eq_iff {t u : TypeTree} :
    t.expandedType = u.expandedType ↔ t.expand.same u.expand = true :=
  ⟨fun h => Quotient.exact h, fun h => Quotient.sound h⟩

end TypeTree

end TypeSketch
