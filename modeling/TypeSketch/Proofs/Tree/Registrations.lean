import TypeSketch.Proofs.Lists.Tables
import TypeSketch.Tree.Registry

/-!
# Registrations

What a kind is registered as after another registration or without one: the latest
registration of a kind counts, and nothing happens to the other kinds.

Rules of containers are there from the start only. A registry in which kinds have been
registered as scalar types or taken out may lack some of them, and those that are left apply
to all values of their kinds.

## Main definitions

* `Registry.isContainer`: Kinds whose values have parts.
* `Registry.IsAdapted`: Registries with more scalar types and fewer kinds.

## Theorems

* `Registry.get?_unregister`, `Registry.get?_register`: Which kinds change.
* `Registry.IsAdapted.container_cases`: The rules of containers are their own.
-/

namespace TypeSketch

namespace Registry

theorem get?_unregister (r : Registry) (kind other : ValueKind) :
    (r.unregister kind).get? other = if other = kind then none else r.get? other := by
  refine (lookup_filter (fun k => decide (k ≠ kind)) r.entries other).trans ?_
  simp only [decide_eq_true_eq, ite_not]
  rfl

theorem get?_register (r : Registry) (kind other : ValueKind) (specialization : Specialization) :
    (r.register kind specialization).get? other =
      if other = kind then some specialization else r.get? other := by
  rw [register, get?, lookup_cons_ite]
  split
  · rfl
  · next hother =>
    change (r.unregister kind).get? other = _
    rw [get?_unregister, if_neg hother]

theorem get?_registerNamed_of_ne {r : Registry} {typeName : String} {type : ScalarType}
    {kind : ValueKind} (h : kind ≠ .atom (.named typeName)) :
    (r.registerNamed typeName type).get? kind = r.get? kind := by
  rw [registerNamed, get?_register, if_neg h]

theorem get?_registerNamed_self (r : Registry) (typeName : String) (type : ScalarType) :
    (r.registerNamed typeName type).get? (.atom (.named typeName)) = some (.scalar type) := by
  rw [registerNamed, get?_register, if_pos rfl]

/-- Whether values of a kind have parts. -/
def isContainer (r : Registry) (kind : ValueKind) : Bool :=
  match r.get? kind with
  | some (.container _) => true
  | _ => false

/-- What comes of the built-in registrations when kinds are registered as scalar types and
    taken out. -/
inductive IsAdapted : Registry → Prop
  | standard : IsAdapted .standard
  | register {r : Registry} (h : IsAdapted r) (kind : ValueKind) (type : ScalarType) :
    IsAdapted (r.register kind (.scalar type))
  | unregister {r : Registry} (h : IsAdapted r) (kind : ValueKind) : IsAdapted (r.unregister kind)

theorem isContainer_iff {r : Registry} {kind : ValueKind} :
    r.isContainer kind = true ↔ ∃ rule, r.get? kind = some (.container rule) := by
  rw [isContainer]
  split
  · next rule hget => exact iff_of_true rfl ⟨rule, hget⟩
  · next hnone => exact iff_of_false Bool.false_ne_true fun ⟨rule, hget⟩ => hnone rule hget

/-- The rules of the built-in containers apply to all values of their kinds. -/
theorem container_of_standard {kind : ValueKind} {rule : ContainerRule}
    (h : standard.get? kind = some (.container rule)) :
    kind = .mapping ∧ rule = .mapping ∨ ∃ sequenceKind, kind = .sequence sequenceKind ∧
      ∀ size, ∃ elementKind, rule.elementKind? size sequenceKind = some elementKind := by
  rcases List.mem_append.mp (mem_of_lookup_eq_some h) with hmem | hmem
  · rcases List.mem_map.mp hmem with ⟨k, _, heq⟩
    contradiction
  · simp only [List.mem_cons, Prod.mk.injEq, Specialization.container.injEq, List.not_mem_nil,
      or_false] at hmem
    rcases hmem with ⟨rfl, rfl⟩ | ⟨rfl, rfl⟩ | ⟨rfl, rfl⟩ | ⟨rfl, rfl⟩ | ⟨rfl, rfl⟩ | ⟨rfl, rfl⟩
    · exact Or.inl ⟨rfl, rfl⟩
    all_goals exact Or.inr ⟨_, rfl, fun _ => ⟨_, rfl⟩⟩

/-- No container gets a rule that it has not had from the start. -/
theorem IsAdapted.container_cases {r : Registry} (h : r.IsAdapted) {kind : ValueKind}
    {rule : ContainerRule} (hget : r.get? kind = some (.container rule)) :
    kind = .mapping ∧ rule = .mapping ∨ ∃ sequenceKind, kind = .sequence sequenceKind ∧
      ∀ size, ∃ elementKind, rule.elementKind? size sequenceKind = some elementKind := by
  induction h with
  | standard => exact container_of_standard hget
  | register _ _ _ ih =>
    rw [get?_register] at hget
    split at hget
    -- What has been registered is a scalar type.
    · cases hget
    · exact ih hget
  | unregister _ _ ih =>
    rw [get?_unregister] at hget
    split at hget
    · contradiction
    · exact ih hget

end Registry

end TypeSketch
