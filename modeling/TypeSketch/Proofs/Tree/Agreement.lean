import TypeSketch.Proofs.Tree.Inferred

/-!
# Two Runs of Inference

Inference of two values side by side, or of one value under two names. Two attempts agree if
both fail or both succeed, with errors or results that are related. Where the attempts agree
on all parts of two values, they agree on the values: the parts are inferred in order, and
the first failure ends it on both sides.

Which relations these are is left open. Errors may have to be the same, or any two will do;
and the relation of trees is what the node makes of those of its children.

This is a fact about the values whose kinds are left to the registry. What a constructor of a
caller's own makes of two values is for the caller to say, and nothing about it follows from the
parts unless the caller says so. `PreservesAgreement` is what has to be said: that the constructor
makes nodes that agree if those that it may ask the builder for agree. With that, agreement of all
nodes is an induction on the size of values, in which both kinds of values are one step.

## Main definitions

* `Agrees`: Two attempts with related outcomes.
* `Inference.elementKind?`: What sequences of a kind are spelled with.
* `Builder.AgreesBelow`: Two attempts agree on all smaller values.
* `Builder.PreservesAgreement`: What is asked of constructors of a caller's own.
* `Inference.leaving`: A constructor that infers by another registry.

## Theorems

* `Builder.agrees_elementNodes`, `Builder.agrees_fieldNodes`: The parts in order.
* `Builder.agrees_atom`, `Builder.agrees_sequence`, `Builder.agrees_mapping`: A node from its parts.
* `Builder.agrees_node`: Agreement of all nodes.
* `Inference.preservesAgreement`, `Inference.preservesAgreement_leaving`: Constructors of which
  that is known.
-/

namespace TypeSketch

/-- Both attempts fail or both succeed, with related outcomes. -/
inductive Agrees {ε α β : Type} (E : ε → ε → Prop) (R : α → β → Prop) :
    Except ε α → Except ε β → Prop
  | error {e e' : ε} (alike : E e e') : Agrees E R (.error e) (.error e')
  | ok {a : α} {b : β} (related : R a b) : Agrees E R (.ok a) (.ok b)

namespace Agrees

variable {ε α β γ δ : Type} {E : ε → ε → Prop} {R : α → β → Prop} {S : γ → δ → Prop}
  {x : Except ε α} {y : Except ε β}

/-- An attempt agrees with itself. -/
theorem refl {R : α → α → Prop} (hE : ∀ e, E e e) (hR : ∀ a, R a a) (x : Except ε α) :
    Agrees E R x x := by
  cases x with
  | error e => exact .error (hE e)
  | ok a => exact .ok (hR a)

theorem bind {f : α → Except ε γ} {g : β → Except ε δ} (h : Agrees E R x y)
    (hfg : ∀ a b, R a b → Agrees E S (f a) (g b)) : Agrees E S (x.bind f) (y.bind g) := by
  cases h with
  | error alike => exact .error alike
  | ok related => exact hfg _ _ related

theorem map {f : α → γ} {g : β → δ} (h : Agrees E R x y) (hfg : ∀ a b, R a b → S (f a) (g b)) :
    Agrees E S (x.map f) (y.map g) := by
  cases h with
  | error alike => exact .error alike
  | ok related => exact .ok (hfg _ _ related)

/-- A weaker relation of the results may use what is known of them. -/
theorem imp {R' : α → β → Prop} (h : Agrees E R x y)
    (himp : ∀ a b, x = .ok a → y = .ok b → R a b → R' a b) : Agrees E R' x y := by
  cases h with
  | error alike => exact .error alike
  | ok related => exact .ok (himp _ _ rfl rfl related)

theorem ok_iff (h : Agrees E R x y) : (∃ a, x = .ok a) ↔ ∃ b, y = .ok b := by
  cases h with
  | error alike =>
    constructor
    · rintro ⟨_, heq⟩
      contradiction
    · rintro ⟨_, heq⟩
      contradiction
  | ok related => exact iff_of_true ⟨_, rfl⟩ ⟨_, rfl⟩

theorem of_ok {a : α} {b : β} (h : Agrees E R (.ok a) (.ok b)) : R a b := by
  cases h with
  | ok related => exact related

/-- With one error on both sides the two attempts fail alike or succeed alike. -/
theorem cases_eq (h : Agrees (fun e e' : ε => e = e') R x y) :
    (∃ e, x = .error e ∧ y = .error e) ∨ ∃ a b, x = .ok a ∧ y = .ok b ∧ R a b := by
  cases h with
  | error alike => exact Or.inl ⟨_, rfl, by rw [alike]⟩
  | ok related => exact Or.inr ⟨_, _, rfl, rfl, related⟩

end Agrees

namespace Inference

/-- What sequences of a kind are spelled with, if the kind is registered with a rule that applies
    to them. -/
def elementKind? (run : Inference) (kind : SequenceKind) : Option ElementKind :=
  match run.registry.get? (.sequence kind) with
  | some (.container rule) => rule.elementKind? run.strategies.tupleSize kind
  | _ => none

theorem elementKind?_eq_some_iff {run : Inference} {kind : SequenceKind} {elementKind : ElementKind} :
    run.elementKind? kind = some elementKind ↔
      ∃ rule, run.registry.get? (.sequence kind) = some (.container rule) ∧
        rule.elementKind? run.strategies.tupleSize kind = some elementKind := by
  rw [elementKind?]
  split
  · next rule hget => simp only [hget, Option.some.injEq, Specialization.container.injEq, exists_eq_left']
  · next hnone =>
    constructor
    · intro h
      contradiction
    · rintro ⟨rule, hget, _⟩
      exact absurd hget (hnone rule)

end Inference

namespace Builder

open Inference

variable {b : Builder} {E : InferenceError → InferenceError → Prop}

section Parts

variable {parent parent' : String} {R : TypeTree → TypeTree → Prop}

theorem agrees_elementNodes {items items' : List Value}
    (h : List.Forall₂ (fun v w => Agrees E R (b.child parent (.element v) v)
      (b.child parent' (.element w) w)) items items') :
    Agrees E (List.Forall₂ R) (b.elementNodes parent items) (b.elementNodes parent' items') := by
  induction h with
  | nil =>
    rw [elementNodes, elementNodes]
    exact .ok List.Forall₂.nil
  | cons hitem _ ih =>
    rw [elementNodes_cons, elementNodes_cons]
    exact hitem.bind fun t u htu => ih.map fun trees others hrest => List.Forall₂.cons htu hrest

/-- Fields with the same keys in the same order. -/
theorem agrees_fieldNodes {entries entries' : List (Value × Value)} {position : Nat}
    (h : List.Forall₂ (fun e e' => e.1 = e'.1 ∧ ∀ i,
      Agrees E R (b.child parent (.field e.1 i) e.2) (b.child parent' (.field e'.1 i) e'.2))
      entries entries') :
    Agrees E (List.Forall₂ fun f f' => f.1 = f'.1 ∧ R f.2 f'.2)
      (b.fieldNodes parent position entries) (b.fieldNodes parent' position entries') := by
  induction h generalizing position with
  | nil =>
    rw [fieldNodes, fieldNodes]
    exact .ok List.Forall₂.nil
  | cons hentry _ ih =>
    rw [fieldNodes_cons, fieldNodes_cons]
    exact (hentry.2 position).bind fun t u htu =>
      ih.map fun children others hrest => List.Forall₂.cons ⟨hentry.1, htu⟩ hrest

/-- Mappings that differ in the value of one entry only. -/
theorem agrees_fieldNodes_of_entry {S : TypeTree → TypeTree → Prop} (hE : ∀ e, E e e)
    (hS : ∀ t, S t t) {before after : List (Value × Value)} {key v w : Value}
    (h : Agrees E S (b.child parent (.field key before.length) v)
      (b.child parent (.field key before.length) w)) :
    Agrees E (List.Forall₂ fun f f' => f.1 = f'.1 ∧ S f.2 f'.2)
      (b.fieldNodes parent 0 (before ++ (key, v) :: after))
      (b.fieldNodes parent 0 (before ++ (key, w) :: after)) := by
  have hrefl : ∀ children : List (Value × TypeTree),
      List.Forall₂ (fun f f' => f.1 = f'.1 ∧ S f.2 f'.2) children children := fun children =>
    List.forall₂_same.mpr fun f _ => ⟨rfl, hS f.2⟩
  rw [fieldNodes_append, fieldNodes_append, fieldNodes_cons, fieldNodes_cons, Nat.zero_add]
  -- The fields in front are the same, and so are those behind, as they stand at the same positions.
  refine (Agrees.refl hE hrefl (b.fieldNodes parent 0 before)).bind fun front front' hfront => ?_
  have hback := h.bind fun t u htu =>
    (Agrees.refl hE hrefl (b.fieldNodes parent (before.length + 1) after)).map
      fun others others' hothers => List.Forall₂.cons (a := (key, t)) (b := (key, u)) ⟨rfl, htu⟩ hothers
  exact hback.map fun _ _ hrest => List.rel_append hfront hrest

end Parts

section Nodes

variable {name name' : String} {R : TypeTree → TypeTree → Prop} (hrefl : ∀ e, E e e)

include hrefl

theorem agrees_atom {a a' : Atom} (hnone : b.supplied (.atom a.kind) = none) (hkind : a.kind = a'.kind)
    (hscalar : ∀ type, R (.scalar name (.atom a) type) (.scalar name' (.atom a') type)) :
    Agrees E R (b.node name (.atom a)) (b.node name' (.atom a')) := by
  -- The other atom is looked up as this one is.
  have hnone' : b.supplied (.atom a'.kind) = none := by rw [← hkind, hnone]
  have hget' : b.registry.get? (.atom a'.kind) = b.registry.get? (.atom a.kind) := by rw [hkind]
  cases hget : b.registry.get? (.atom a.kind) with
  | none =>
    rw [node_of_unregistered hnone hget, node_of_unregistered hnone' (hget'.trans hget), Value.typeName,
      Value.typeName, Value.kind, Value.kind, hkind]
    exact .error (hrefl _)
  | some specialization =>
    cases specialization with
    | scalar type =>
      rw [node_of_scalar hnone hget, node_of_scalar hnone' (hget'.trans hget)]
      exact .ok (hscalar type)
    | container rule =>
      rw [node_of_atom hnone hget, node_of_atom hnone' (hget'.trans hget), hkind]
      exact .error (hrefl _)

theorem agrees_sequence {S : List TypeTree → List TypeTree → Prop} {kind : SequenceKind}
    {items items' : List Value} (hnone : b.supplied (.sequence kind) = none)
    (hscalar : ∀ type, R (.scalar name (.sequence kind items) type)
      (.scalar name' (.sequence kind items') type))
    (hitems : Agrees E S (b.elementNodes name items) (b.elementNodes name' items'))
    (harranged : ∀ elementKind trees trees', b.elementKind? kind = some elementKind →
      S trees trees' → R (.ofElements name (.sequence kind items) elementKind
          (TypeTree.arrange b.strategies elementKind trees))
        (.ofElements name' (.sequence kind items') elementKind
          (TypeTree.arrange b.strategies elementKind trees'))) :
    Agrees E R (b.node name (.sequence kind items)) (b.node name' (.sequence kind items')) := by
  -- Registered or not, the outcome is of one kind on both sides, as the registry is the same.
  cases hget : b.registry.get? (.sequence kind) with
  | none =>
    rw [node_of_unregistered hnone hget, node_of_unregistered hnone hget]
    exact .error (hrefl _)
  | some specialization =>
    cases specialization with
    | scalar type =>
      rw [node_of_scalar hnone hget, node_of_scalar hnone hget]
      exact .ok (hscalar type)
    | container rule =>
      cases hkind : rule.elementKind? b.strategies.tupleSize kind with
      | none =>
        rw [node_of_foreign hnone hget hkind, node_of_foreign hnone hget hkind]
        exact .error (hrefl _)
      | some elementKind =>
        rw [node_of_sequence hnone hget hkind, node_of_sequence hnone hget hkind]
        exact hitems.map fun trees trees' htrees =>
          harranged elementKind trees trees' (elementKind?_eq_some_iff.mpr ⟨rule, hget, hkind⟩) htrees

theorem agrees_mapping {S : List (Value × TypeTree) → List (Value × TypeTree) → Prop}
    {entries entries' : List (Value × Value)} (hnone : b.supplied .mapping = none)
    (hscalar : ∀ type, R (.scalar name (.mapping entries) type)
      (.scalar name' (.mapping entries') type))
    (hfields : Agrees E S (b.fieldNodes name 0 entries) (b.fieldNodes name' 0 entries'))
    (hset : ∀ children children', S children children' →
      R (.ofFields name (.mapping entries) (mappingForm b.strategies entries)
          (distinctFields children))
        (.ofFields name' (.mapping entries') (mappingForm b.strategies entries')
          (distinctFields children'))) :
    Agrees E R (b.node name (.mapping entries)) (b.node name' (.mapping entries')) := by
  -- The registry decides what becomes of the mapping, and it is the same on both sides.
  cases hget : b.registry.get? .mapping with
  | none =>
    rw [node_of_unregistered hnone hget, node_of_unregistered hnone hget]
    exact .error (hrefl _)
  | some specialization =>
    cases specialization with
    | scalar type =>
      rw [node_of_scalar hnone hget, node_of_scalar hnone hget]
      exact .ok (hscalar type)
    | container rule =>
      rw [node_of_mapping hnone hget, node_of_mapping hnone hget]
      split
      · exact hfields.map hset
      · exact .error (hrefl _)

end Nodes

section Supplied

variable {P : String → String → Value → Value → Prop} {R : TypeTree → TypeTree → Prop}

/-- The nodes that are made of values agree wherever `P` relates their names and the values, as
    far as the first one is smaller than `v`. -/
def AgreesBelow (b : Builder) (P : String → String → Value → Value → Prop)
    (E : InferenceError → InferenceError → Prop) (R : TypeTree → TypeTree → Prop) (v : Value) : Prop :=
  ∀ name name' part part', sizeOf part < sizeOf v → P name name' part part' →
    Agrees E R (b.node name part) (b.node name' part')

/-- A constructor of a caller's own makes nodes that agree if all those agree that the builder
    makes of smaller values. -/
def PreservesAgreement (b : Builder) (P : String → String → Value → Value → Prop)
    (E : InferenceError → InferenceError → Prop) (R : TypeTree → TypeTree → Prop) : Prop :=
  ∀ construct name name' v w, b.supplied v.kind = some construct → P name name' v w →
    b.AgreesBelow P E R v → Agrees E R (construct name v) (construct name' w)

/-- If the nodes of values of registered kinds agree wherever those of smaller values do, and
    those of a caller's constructors do so, too, then all nodes agree. -/
theorem agrees_node (hsupplied : b.PreservesAgreement P E R)
    (hkind : ∀ {name name' v w}, P name name' v w → v.kind = w.kind)
    (hregistered : ∀ {name name' v w}, b.supplied v.kind = none → P name name' v w →
      b.AgreesBelow P E R v → Agrees E R (b.node name v) (b.node name' w))
    {name name' : String} {v w : Value} (h : P name name' v w) :
    Agrees E R (b.node name v) (b.node name' w) := by
  induction hsize : sizeOf v using Nat.strongRecOn generalizing name name' v w with
  | _ size ih =>
    have hbelow : b.AgreesBelow P E R v := fun _ _ part _ hpart hparts =>
      ih (sizeOf part) (hsize ▸ hpart) hparts rfl
    cases hkinds : b.supplied v.kind with
    | none => exact hregistered hkinds h hbelow
    | some construct =>
      rw [node_of_supplied hkinds, node_of_supplied (hkind h ▸ hkinds)]
      exact hsupplied construct name name' v w hkinds h hbelow

end Supplied

end Builder

namespace Inference

variable {P : String → String → Value → Value → Prop} {E : InferenceError → InferenceError → Prop}
  {R : TypeTree → TypeTree → Prop}

/-- Without constructors of a caller's own there is nothing to ask. -/
theorem preservesAgreement (run : Inference) : run.builder.PreservesAgreement P E R :=
  fun _ _ _ _ _ hsupplied => absurd hsupplied (Option.some_ne_none _).symm

/-- The builder that leaves the values of a kind to another registry. -/
def leaving (run : Inference) (kind : ValueKind) (other : Inference) : Builder where
  toInference := run
  supplied k := if k = kind then some other.node else none

theorem preservesAgreement_leaving {run other : Inference} {kind : ValueKind}
    (h : ∀ {name name' v w}, P name name' v w → Agrees E R (other.node name v) (other.node name' w)) :
    (run.leaving kind other).PreservesAgreement P E R := by
  intro construct name name' v w hsupplied hvw _
  rw [leaving] at hsupplied
  dsimp only at hsupplied
  split at hsupplied
  · cases hsupplied
    exact h hvw
  · contradiction

end Inference

end TypeSketch
