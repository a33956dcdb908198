import Mathlib.Data.List.Forall2
import Mathlib.Data.List.Induction
import TypeSketch.Proofs.Lists.Related
import TypeSketch.Proofs.Lists.Tables
import TypeSketch.Proofs.Tree.Nodes
import TypeSketch.Proofs.Value.Keys
import TypeSketch.Tree.Inference

/-!
# How a Tree Is Inferred

Inference as a relation between a value and its tree, step by step. A node knows which
registration made it and how its children were inferred from the parts of the value;
`Inference.node_induct` is the induction along these steps, and every property of all
inferred trees is proved by it.

The children of a node are inferred by a recursion that stops at the first failure.
Where it succeeds, it is the same as inferring each child alone, which is how the two
lists are stated here.

The children are inferred in the same way whether or not a caller has constructors of its own. So
what is said of them is said of any builder first. A node is made by such a constructor or by the
registry, and only of the latter is it known how.

## Main definitions

* `Builder.IsField`, `Inference.IsField`: A field and the entry that it was inferred from.
* `Inference.IsNode`: One step of inference.

## Theorems

* `Registry.scalar_of_standard`: The scalar types that are registered from the start.
* `Builder.child_eq_ok_iff`: When a child is inferred, and which.
* `Builder.elementNodes_eq_ok_iff`, `Builder.fieldNodes_eq_ok_iff`: The children of a
  node, one by one.
* `Builder.keys_of_isField`: The keys of fields are those of the entries.
* `Builder.node_of_supplied`: A kind with a constructor of a caller's own.
* `Builder.node_of_scalar`, `Builder.node_of_sequence`, `Builder.node_of_mapping`: A kind that is
  left to the registry.
* `Inference.isNode_of_node`, `Inference.node_of_isNode`: What makes a node.
* `Inference.name_of_node`: A node has the name that was asked for.
* `Inference.node_induct`: Induction along inference.
* `Inference.mem_distinctFields`, `Inference.exists_mem_distinctFields`,
  `Inference.distinctKeys_distinctFields`,
  `Inference.distinctFields_eq_self`: What remains of fields whose keys may repeat.
-/

namespace TypeSketch

namespace Registry

/-- The kinds of atoms that are registered from the start. -/
def builtinAtoms : List AtomKind := [.none, .bool, .int, .float, .str, .bytes]

/-- Without registrations a scalar type is spelled as the type of its values is called. -/
theorem scalar_of_standard {kind : ValueKind} {type : ScalarType}
    (h : standard.get? kind = some (.scalar type)) :
    ∃ k ∈ builtinAtoms, kind = .atom k ∧ type = ⟨k.typeName, none⟩ := by
  rcases List.mem_append.mp (mem_of_lookup_eq_some h) with hmem | hmem
  · rcases List.mem_map.mp hmem with ⟨k, hk, heq⟩
    cases heq
    exact ⟨k, hk, rfl, rfl⟩
  · simp only [List.mem_cons, Prod.mk.injEq, reduceCtorEq, and_false, List.not_mem_nil,
      or_self] at hmem

end Registry

section Attempts

variable {ε α β : Type} {x : Except ε α}

theorem bind_eq_ok_iff {f : α → Except ε β} {b : β} :
    x.bind f = .ok b ↔ ∃ a, x = .ok a ∧ f a = .ok b := by
  cases x with
  | error e => simp only [Except.bind, reduceCtorEq, false_and, exists_false]
  | ok a => simp only [Except.bind, Except.ok.injEq, exists_eq_left']

theorem map_eq_ok_iff {f : α → β} {b : β} : x.map f = .ok b ↔ ∃ a, x = .ok a ∧ f a = b := by
  cases x with
  | error e => simp only [Except.map, reduceCtorEq, false_and, exists_false]
  | ok a => simp only [Except.map, Except.ok.injEq, exists_eq_left']

theorem toBool_eq_true_iff : x.toBool = true ↔ ∃ a, x = .ok a := by
  cases x with
  | error e => simp only [Except.toBool, Bool.false_eq_true, reduceCtorEq, exists_false]
  | ok a => exact iff_of_true rfl ⟨a, rfl⟩

end Attempts

namespace Inference

theorem checkName_eq_ok_iff {s : Strategies} {key : ChildKey} {name : String} {t u : TypeTree} :
    checkName s key name t = .ok u ↔
      u = t ∧ (t.isAliased s = true → Naming.isIdentifier name = true) := by
  rw [checkName]
  -- A name is looked at only if something is to be declared under it.
  split
  · next h =>
    rw [Bool.and_eq_true, Bool.not_eq_true'] at h
    constructor
    · intro hok
      contradiction
    · rintro ⟨_, himp⟩
      exact absurd (himp h.2) (by rw [h.1]; exact Bool.false_ne_true)
  · next h =>
    rw [Except.ok.injEq, eq_comm]
    refine (and_iff_left_of_imp fun _ haliased => ?_).symm
    by_contra hname
    rw [Bool.not_eq_true] at hname
    exact h (by rw [hname, haliased]; rfl)

end Inference

namespace Builder

open Inference

theorem child_eq_ok_iff {b : Builder} {parent : String} {key : ChildKey} {v : Value} {t : TypeTree} :
    b.child parent key v = .ok t ↔
      b.node (Naming.childName parent key) v = .ok t ∧
        (t.isAliased b.strategies = true →
          Naming.isIdentifier (Naming.childName parent key) = true) := by
  rw [child, bind_eq_ok_iff]
  constructor
  · rintro ⟨u, hnode, hcheck⟩
    rcases checkName_eq_ok_iff.mp hcheck with ⟨rfl, himp⟩
    exact ⟨hnode, himp⟩
  · rintro ⟨hnode, himp⟩
    exact ⟨t, hnode, checkName_eq_ok_iff.mpr ⟨rfl, himp⟩⟩

theorem elementNodes_cons (b : Builder) (parent : String) (item : Value) (rest : List Value) :
    b.elementNodes parent (item :: rest) =
      (b.child parent (.element item) item).bind fun t =>
        (b.elementNodes parent rest).map (t :: ·) := by
  rw [elementNodes, child]
  cases (b.node (Naming.childName parent (.element item)) item).bind
      (checkName b.strategies (.element item) (Naming.childName parent (.element item))) with
  | error e => rfl
  | ok t => cases b.elementNodes parent rest <;> rfl

theorem elementNodes_append (b : Builder) (parent : String) (before after : List Value) :
    b.elementNodes parent (before ++ after) =
      (b.elementNodes parent before).bind fun trees =>
        (b.elementNodes parent after).map (trees ++ ·) := by
  induction before with
  | nil =>
    rw [List.nil_append, elementNodes]
    cases b.elementNodes parent after <;> rfl
  | cons item rest ih =>
    rw [List.cons_append, elementNodes_cons, elementNodes_cons, ih]
    cases b.child parent (.element item) item with
    | error e => rfl
    | ok t =>
      cases b.elementNodes parent rest with
      | error e => rfl
      | ok trees => cases b.elementNodes parent after <;> rfl

theorem elementNodes_eq_ok_iff {b : Builder} {parent : String} {items : List Value}
    {trees : List TypeTree} :
    b.elementNodes parent items = .ok trees ↔
      List.Forall₂ (fun item t => b.child parent (.element item) item = .ok t) items trees := by
  induction items generalizing trees with
  | nil =>
    rw [elementNodes, Except.ok.injEq, List.forall₂_nil_left_iff, eq_comm]
  | cons item rest ih =>
    rw [elementNodes_cons, bind_eq_ok_iff, List.forall₂_cons_left_iff]
    refine exists_congr fun t => ?_
    rw [map_eq_ok_iff, ← exists_and_left]
    refine exists_congr fun others => ?_
    rw [ih, @eq_comm _ trees]

/-- A field of a node with the entry, and its position, that it was inferred from. -/
def IsField (b : Builder) (parent : String) (entry : (Value × Value) × Nat)
    (f : Value × TypeTree) : Prop :=
  f.1 = entry.1.1 ∧ b.child parent (.field entry.1.1 entry.2) entry.1.2 = .ok f.2

theorem fieldNodes_cons (b : Builder) (parent : String) (position : Nat) (key item : Value)
    (rest : List (Value × Value)) :
    b.fieldNodes parent position ((key, item) :: rest) =
      (b.child parent (.field key position) item).bind fun t =>
        (b.fieldNodes parent (position + 1) rest).map ((key, t) :: ·) := by
  rw [fieldNodes, child]
  cases (b.node (Naming.childName parent (.field key position)) item).bind
      (checkName b.strategies (.field key position)
        (Naming.childName parent (.field key position))) with
  | error e => rfl
  | ok t => cases b.fieldNodes parent (position + 1) rest <;> rfl

theorem fieldNodes_append (b : Builder) (parent : String) (position : Nat)
    (before after : List (Value × Value)) :
    b.fieldNodes parent position (before ++ after) =
      (b.fieldNodes parent position before).bind fun children =>
        (b.fieldNodes parent (position + before.length) after).map (children ++ ·) := by
  induction before generalizing position with
  | nil =>
    rw [List.nil_append, fieldNodes, List.length_nil, Nat.add_zero]
    cases b.fieldNodes parent position after <;> rfl
  | cons e rest ih =>
    rw [List.cons_append, fieldNodes_cons, fieldNodes_cons, ih, List.length_cons,
      Nat.add_right_comm position 1, Nat.add_assoc]
    cases b.child parent (.field e.1 position) e.2 with
    | error e => rfl
    | ok t =>
      cases b.fieldNodes parent (position + 1) rest with
      | error e => rfl
      | ok children => cases b.fieldNodes parent (position + (rest.length + 1)) after <;> rfl

theorem fieldNodes_eq_ok_iff {b : Builder} {parent : String} {position : Nat}
    {entries : List (Value × Value)} {children : List (Value × TypeTree)} :
    b.fieldNodes parent position entries = .ok children ↔
      List.Forall₂ (b.IsField parent) (entries.zipIdx position) children := by
  induction entries generalizing children position with
  | nil =>
    rw [fieldNodes, Except.ok.injEq, List.zipIdx_nil, List.forall₂_nil_left_iff, eq_comm]
  | cons e rest ih =>
    rcases e with ⟨key, item⟩
    rw [fieldNodes_cons, bind_eq_ok_iff, List.zipIdx_cons, List.forall₂_cons_left_iff]
    constructor
    · rintro ⟨t, hchild, hrest⟩
      rcases map_eq_ok_iff.mp hrest with ⟨others, hothers, rfl⟩
      exact ⟨(key, t), others, ⟨rfl, hchild⟩, ih.mp hothers, rfl⟩
    · rintro ⟨⟨_, t⟩, others, ⟨rfl, hchild⟩, hothers, rfl⟩
      exact ⟨t, hchild, map_eq_ok_iff.mpr ⟨others, ih.mpr hothers, rfl⟩⟩

/-- The fields of a node have the keys of the entries that they were inferred from. -/
theorem keys_of_isField {b : Builder} {parent : String} {entries : List (Value × Value)}
    {children : List (Value × TypeTree)}
    (h : List.Forall₂ (b.IsField parent) entries.zipIdx children) :
    children.map (·.1) = entries.map (·.1) :=
  calc children.map (·.1) = entries.zipIdx.map (·.1.1) :=
        map_eq_of_forall₂ (h.imp fun _ _ hf => hf.1)
    _ = (entries.zipIdx.map Prod.fst).map (·.1) := by rw [List.map_map]; rfl
    _ = entries.map (·.1) := by rw [List.zipIdx_map_fst]

/-- A constructor of a caller's own makes the node of a value of its kind. -/
theorem node_of_supplied {b : Builder} {construct : Constructor} {v : Value}
    (h : b.supplied v.kind = some construct) (name : String) : b.node name v = construct name v := by
  rw [node.eq_def, h]

section Registered

variable {b : Builder} {v : Value} {kind : SequenceKind} {rule : ContainerRule}

/-! The node of a value whose kind is left to the registry, by what it is registered as. -/

theorem node_of_unregistered (h : b.supplied v.kind = none) (hget : b.registry.get? v.kind = none)
    (name : String) : b.node name v = .error (.unsupportedType v.typeName) := by
  rw [node.eq_def, h, hget]

theorem node_of_scalar {type : ScalarType} (h : b.supplied v.kind = none)
    (hget : b.registry.get? v.kind = some (.scalar type)) (name : String) :
    b.node name v = .ok (.scalar name v type) := by
  rw [node.eq_def, h, hget]

theorem node_of_atom {a : Atom} (h : b.supplied (.atom a.kind) = none)
    (hget : b.registry.get? (.atom a.kind) = some (.container rule)) (name : String) :
    b.node name (.atom a) = .error (.unsupportedType a.kind.typeName) := by
  rw [node, Value.kind, h, hget]

theorem node_of_foreign (h : b.supplied (.sequence kind) = none)
    (hget : b.registry.get? (.sequence kind) = some (.container rule))
    (hkind : rule.elementKind? b.strategies.tupleSize kind = none) (name : String)
    (items : List Value) :
    b.node name (.sequence kind items) = .error (.unsupportedType kind.typeName) := by
  rw [node, Value.kind, h, hget]
  dsimp only
  rw [hkind]

theorem node_of_sequence {elementKind : ElementKind} (h : b.supplied (.sequence kind) = none)
    (hget : b.registry.get? (.sequence kind) = some (.container rule))
    (hkind : rule.elementKind? b.strategies.tupleSize kind = some elementKind) (name : String)
    (items : List Value) :
    b.node name (.sequence kind items) = (b.elementNodes name items).map fun trees =>
      .ofElements name (.sequence kind items) elementKind
        (TypeTree.arrange b.strategies elementKind trees) := by
  rw [node, Value.kind, h, hget]
  dsimp only
  rw [hkind]
  cases b.elementNodes name items <;> rfl

theorem node_of_mapping (h : b.supplied .mapping = none)
    (hget : b.registry.get? .mapping = some (.container rule)) (name : String)
    (entries : List (Value × Value)) :
    b.node name (.mapping entries) =
      if rule = .mapping then
        (b.fieldNodes name 0 entries).map fun children =>
          .ofFields name (.mapping entries) (mappingForm b.strategies entries)
            (distinctFields children)
      else .error (.unsupportedType ValueKind.mapping.typeName) := by
  rw [node, Value.kind, h, hget]
  dsimp only
  split
  · cases b.fieldNodes name 0 entries <;> rfl
  · rfl

end Registered

end Builder

namespace Inference

/-! What has been said of a builder's children is said here of those by the registry alone. -/

section Children

variable {run : Inference} {parent : String}

theorem child_eq_ok_iff {key : ChildKey} {v : Value} {t : TypeTree} :
    run.child parent key v = .ok t ↔
      run.node (Naming.childName parent key) v = .ok t ∧
        (t.isAliased run.strategies = true →
          Naming.isIdentifier (Naming.childName parent key) = true) :=
  Builder.child_eq_ok_iff

theorem elementNodes_cons (run : Inference) (parent : String) (item : Value) (rest : List Value) :
    elementNodes run parent (item :: rest) =
      (run.child parent (.element item) item).bind fun t =>
        (elementNodes run parent rest).map (t :: ·) :=
  run.builder.elementNodes_cons parent item rest

theorem elementNodes_append (run : Inference) (parent : String) (before after : List Value) :
    elementNodes run parent (before ++ after) =
      (elementNodes run parent before).bind fun trees =>
        (elementNodes run parent after).map (trees ++ ·) :=
  run.builder.elementNodes_append parent before after

theorem elementNodes_eq_ok_iff {items : List Value} {trees : List TypeTree} :
    elementNodes run parent items = .ok trees ↔
      List.Forall₂ (fun item t => run.child parent (.element item) item = .ok t) items trees :=
  Builder.elementNodes_eq_ok_iff

/-- A field of a node with the entry, and its position, that it was inferred from. -/
def IsField (run : Inference) (parent : String) (entry : (Value × Value) × Nat)
    (f : Value × TypeTree) : Prop :=
  f.1 = entry.1.1 ∧ run.child parent (.field entry.1.1 entry.2) entry.1.2 = .ok f.2

theorem fieldNodes_cons (run : Inference) (parent : String) (position : Nat) (key item : Value)
    (rest : List (Value × Value)) :
    fieldNodes run parent position ((key, item) :: rest) =
      (run.child parent (.field key position) item).bind fun t =>
        (fieldNodes run parent (position + 1) rest).map ((key, t) :: ·) :=
  run.builder.fieldNodes_cons parent position key item rest

theorem fieldNodes_eq_ok_iff {position : Nat} {entries : List (Value × Value)}
    {children : List (Value × TypeTree)} :
    fieldNodes run parent position entries = .ok children ↔
      List.Forall₂ (run.IsField parent) (entries.zipIdx position) children :=
  Builder.fieldNodes_eq_ok_iff

theorem keys_of_isField {entries : List (Value × Value)} {children : List (Value × TypeTree)}
    (h : List.Forall₂ (run.IsField parent) entries.zipIdx children) :
    children.map (·.1) = entries.map (·.1) :=
  Builder.keys_of_isField (b := run.builder) h

end Children

/-- One step of inference: how the node of a value has been made from its children. -/
inductive IsNode (run : Inference) (name : String) : Value → TypeTree → Prop
  | scalar {v : Value} {type : ScalarType} (registered : run.registry.get? v.kind = some (.scalar type)) :
    IsNode run name v (.scalar name v type)
  | sequence {kind : SequenceKind} {items : List Value} {rule : ContainerRule}
    {elementKind : ElementKind} {trees : List TypeTree}
    (registered : run.registry.get? (.sequence kind) = some (.container rule))
    (kind_eq : rule.elementKind? run.strategies.tupleSize kind = some elementKind)
    (children : List.Forall₂ (fun item t => run.child name (.element item) item = .ok t) items trees) :
    IsNode run name (.sequence kind items) (.ofElements name (.sequence kind items) elementKind
      (TypeTree.arrange run.strategies elementKind trees))
  | mapping {entries : List (Value × Value)} {children : List (Value × TypeTree)}
    (registered : run.registry.get? .mapping = some (.container .mapping))
    (fields : List.Forall₂ (run.IsField name) entries.zipIdx children) :
    IsNode run name (.mapping entries) (.ofFields name (.mapping entries)
      (mappingForm run.strategies entries) (distinctFields children))

theorem isNode_of_node {run : Inference} {name : String} {v : Value} {t : TypeTree}
    (h : run.node name v = .ok t) : run.IsNode name v t := by
  rw [node] at h
  cases hget : run.registry.get? v.kind with
  | none =>
    rw [Builder.node_of_unregistered rfl hget] at h
    contradiction
  | some specialization =>
    cases specialization with
    | scalar type =>
      rw [Builder.node_of_scalar rfl hget, Except.ok.injEq] at h
      rw [← h]
      exact IsNode.scalar hget
    -- A container rule makes a node only of a sequence or a mapping.
    | container rule =>
      cases v with
      | atom a =>
        rw [Builder.node_of_atom rfl hget] at h
        contradiction
      | sequence kind items =>
        -- A rule may be registered for a kind of sequence that it does not make.
        cases hkind : rule.elementKind? run.strategies.tupleSize kind with
        | none =>
          rw [Builder.node_of_foreign rfl hget hkind] at h
          contradiction
        | some elementKind =>
          rw [Builder.node_of_sequence rfl hget hkind] at h
          rcases map_eq_ok_iff.mp h with ⟨trees, htrees, rfl⟩
          exact IsNode.sequence hget hkind (elementNodes_eq_ok_iff.mp htrees)
      | mapping entries =>
        rw [Builder.node_of_mapping rfl hget] at h
        split at h
        · next hrule =>
          rw [hrule] at hget
          rcases map_eq_ok_iff.mp h with ⟨children, hchildren, rfl⟩
          exact IsNode.mapping hget (fieldNodes_eq_ok_iff.mp hchildren)
        · contradiction

theorem node_of_isNode {run : Inference} {name : String} {v : Value} {t : TypeTree}
    (h : run.IsNode name v t) : run.node name v = .ok t := by
  rw [node]
  cases h with
  | scalar registered => exact Builder.node_of_scalar rfl registered name
  | sequence registered kind_eq children =>
    rw [Builder.node_of_sequence rfl registered kind_eq]
    exact map_eq_ok_iff.mpr ⟨_, elementNodes_eq_ok_iff.mpr children, rfl⟩
  | mapping registered fields =>
    rw [Builder.node_of_mapping rfl registered, if_pos rfl]
    exact map_eq_ok_iff.mpr ⟨_, fieldNodes_eq_ok_iff.mpr fields, rfl⟩

theorem isField_of_scalar {run : Inference} {name : String} {key item : Value} {i : Nat}
    {type : ScalarType} (h : run.registry.get? item.kind = some (.scalar type)) :
    run.IsField name ((key, item), i) (key, .scalar (Naming.childName name (.field key i)) item type) :=
  ⟨rfl, child_eq_ok_iff.mpr ⟨node_of_isNode (.scalar h),
    fun haliased => absurd haliased Bool.false_ne_true⟩⟩

/-- Induction along inference: from scalars, and from the children of a node to the
    node. -/
theorem node_induct {run : Inference} {P : String → Value → TypeTree → Prop}
    (scalar : ∀ name v type, run.registry.get? v.kind = some (.scalar type) →
      P name v (.scalar name v type))
    (sequence : ∀ name kind items rule elementKind trees,
      run.registry.get? (.sequence kind) = some (.container rule) →
      rule.elementKind? run.strategies.tupleSize kind = some elementKind →
      List.Forall₂ (fun item t => run.child name (.element item) item = .ok t) items trees →
      List.Forall₂ (fun item t => P (Naming.childName name (.element item)) item t) items trees →
      P name (.sequence kind items) (.ofElements name (.sequence kind items) elementKind
        (TypeTree.arrange run.strategies elementKind trees)))
    (mapping : ∀ name entries children,
      run.registry.get? .mapping = some (.container .mapping) →
      List.Forall₂ (run.IsField name) entries.zipIdx children →
      List.Forall₂ (fun e f => P (Naming.childName name (.field e.1.1 e.2)) e.1.2 f.2)
        entries.zipIdx children →
      P name (.mapping entries) (.ofFields name (.mapping entries)
        (mappingForm run.strategies entries) (distinctFields children))) :
    ∀ v name t, run.node name v = .ok t → P name v t := by
  intro v
  -- The induction is on the value, and the node is taken apart by the step that has made it.
  induction v with
  | atom a =>
    intro name t h
    rcases isNode_of_node h with ⟨hget⟩
    exact scalar name _ _ hget
  | sequence kind items ih =>
    intro name t h
    rcases isNode_of_node h with ⟨hget⟩ | ⟨hget, hkind, hchildren⟩
    · exact scalar name _ _ hget
    · refine sequence name kind items _ _ _ hget hkind hchildren ?_
      refine ((List.forall₂_and_left _ _).mpr ⟨ih, hchildren⟩).imp fun item t ⟨hitem, hchild⟩ => ?_
      exact hitem _ t (child_eq_ok_iff.mp hchild).1
  | mapping entries ih =>
    intro name t h
    rcases isNode_of_node h with ⟨hget⟩ | _ | ⟨hget, hfields⟩
    · exact scalar name _ _ hget
    · refine mapping name entries _ hget hfields ?_
      -- The hypothesis for the entries goes over to the entries with their positions.
      have hvalues : ∀ e ∈ entries.zipIdx, ∀ name t, run.node name e.1.2 = .ok t →
          P name e.1.2 t :=
        fun e he => (ih e.1 (List.fst_mem_of_mem_zipIdx he)).2
      refine ((List.forall₂_and_left _ _).mpr ⟨hvalues, hfields⟩).imp fun e f ⟨hvalue, hf⟩ => ?_
      exact hvalue _ f.2 (child_eq_ok_iff.mp hf.2).1

theorem name_of_node {run : Inference} {name : String} {v : Value} {t : TypeTree}
    (h : run.node name v = .ok t) : t.name = name := by
  refine node_induct (P := fun name _ t => t.name = name) ?_ ?_ ?_ v name t h
  · intros; rfl
  · intros; rfl
  · intros; rfl

theorem infer_eq (run : Inference) (name : String) (v : Value) :
    run.infer name v =
      if Naming.isIdentifier name then run.node name v else .error (.invalidIdentifier name) := rfl

theorem infer_eq_ok_iff {run : Inference} {name : String} {v : Value} {t : TypeTree} :
    run.infer name v = .ok t ↔ Naming.isIdentifier name = true ∧ run.node name v = .ok t := by
  rw [infer_eq]
  split
  · next h => simp only [h, true_and]
  · next h => simp only [h, reduceCtorEq, false_and]

section DistinctFields

variable {children : List (Value × TypeTree)}

/-- What holds of a list of fields and is kept when a field is set holds after all have
    been set. -/
theorem distinctFields_induct {Q : List (Value × TypeTree) → Prop} (hnil : Q [])
    (hset : ∀ fields, ∀ f ∈ children, Q fields → Q (Value.setEntry fields f.1 f.2)) :
    Q (distinctFields children) := by
  have hfold : ∀ (rest fields : List (Value × TypeTree)), (∀ f ∈ rest, f ∈ children) → Q fields →
      Q (rest.foldl (fun fields f => Value.setEntry fields f.1 f.2) fields) := by
    intro rest
    induction rest with
    | nil => intro fields _ h; exact h
    | cons f rest ih =>
      intro fields hmem h
      exact ih _ (fun g hg => hmem g (List.mem_cons_of_mem f hg))
        (hset fields f (hmem f List.mem_cons_self) h)
  exact hfold children [] (fun f hf => hf) hnil

theorem distinctKeys_distinctFields : Value.DistinctKeys (distinctFields children) :=
  distinctFields_induct List.Pairwise.nil fun _ _ _ h => Value.distinctKeys_setEntry h

/-- Keys and subtrees of the remaining fields are keys and subtrees of the given ones. -/
theorem mem_distinctFields {f : Value × TypeTree} (hf : f ∈ distinctFields children) :
    (∃ c ∈ children, c.1 = f.1) ∧ (∃ c ∈ children, c.2 = f.2) := by
  refine distinctFields_induct
    (Q := fun fields => ∀ f ∈ fields, (∃ c ∈ children, c.1 = f.1) ∧ (∃ c ∈ children, c.2 = f.2))
    (fun f hf => absurd hf List.not_mem_nil) ?_ f hf
  intro fields c hc hfields f hf
  -- The field is one that was there, or its key or its tree is from the entry just set.
  rcases Value.mem_setEntry hf with ⟨hkey, htree⟩
  constructor
  · rcases hkey with hkey | ⟨e, he, hkey⟩
    · exact ⟨c, hc, hkey.symm⟩
    · rw [← hkey]
      exact (hfields e he).1
  · rcases htree with htree | ⟨e, he, htree⟩
    · exact ⟨c, hc, htree.symm⟩
    · rw [← htree]
      exact (hfields e he).2

/-- A remaining field has the subtree of a given one, and the keys of the two are one. -/
theorem exists_same_of_mem_distinctFields {f : Value × TypeTree} (hf : f ∈ distinctFields children) :
    ∃ c ∈ children, c.2 = f.2 ∧ (f.1 = c.1 ∨ f.1.same c.1 = true) := by
  refine distinctFields_induct
    (Q := fun fields => ∀ f ∈ fields, ∃ c ∈ children, c.2 = f.2 ∧ (f.1 = c.1 ∨ f.1.same c.1 = true))
    (fun f hf => absurd hf List.not_mem_nil) ?_ f hf
  intro fields c hc hfields f hf
  rcases Value.mem_setEntry_cases hf with hold | ⟨htree, hkey⟩
  · exact hfields f hold
  · exact ⟨c, hc, htree.symm, hkey⟩

/-- No key gets lost where all keys are texts. -/
theorem exists_mem_distinctFields (htexts : Value.TextKeys children) {c : Value × TypeTree}
    (hc : c ∈ children) : ∃ f ∈ distinctFields children, f.1 = c.1 := by
  induction children using List.reverseRecOn with
  | nil => exact absurd hc List.not_mem_nil
  | append_singleton children last ih =>
    have hset : distinctFields (children ++ [last]) =
        Value.setEntry (distinctFields children) last.1 last.2 := List.foldl_concat ..
    rw [hset, ← List.mem_map, Value.keys_setEntry]
    rcases List.mem_append.mp hc with hc | hc
    · have hmem := List.mem_map.mpr
        (ih (fun e he => htexts e (List.mem_append_left _ he)) hc)
      split
      · exact hmem
      · exact List.mem_append_left _ hmem
    · rw [List.mem_singleton.mp hc]
      split
      -- The last key is there already, and a text is one key with itself alone.
      · next hany =>
        rcases List.any_eq_true.mp hany with ⟨f, hf, hsame⟩
        rcases htexts last (List.mem_append_right _ List.mem_cons_self) with ⟨text, htext⟩
        rw [htext, Value.same_str_comm] at hsame
        exact List.mem_map.mpr ⟨f, hf, by rw [hsame, htext]⟩
      · exact List.mem_append_right _ List.mem_cons_self

/-- Fields with distinct keys all remain. -/
theorem distinctFields_eq_self (hd : Value.DistinctKeys children) :
    distinctFields children = children := by
  -- The fields set so far stand in front of those that are still to come.
  have hfold : ∀ (rest fields : List (Value × TypeTree)), Value.DistinctKeys (fields ++ rest) →
      rest.foldl (fun fields f => Value.setEntry fields f.1 f.2) fields =
        fields ++ rest := by
    intro rest
    induction rest with
    | nil => intro fields _; rw [List.append_nil]; rfl
    | cons f rest ih =>
      intro fields h
      have hfresh : ∀ e ∈ fields, e.1.same f.1 = false := by
        rw [Value.DistinctKeys, List.pairwise_append] at h
        exact fun e he => h.2.2 e he f List.mem_cons_self
      rw [List.append_cons] at h ⊢
      have hset : Value.setEntry fields f.1 f.2 = fields ++ [f] := Value.setEntry_of_fresh hfresh
      have hrest := ih _ h
      rw [← hset] at hrest ⊢
      exact hrest
  exact hfold children [] hd

end DistinctFields

end Inference

end TypeSketch
