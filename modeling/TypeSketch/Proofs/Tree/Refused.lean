import TypeSketch.Proofs.Names.NodeNames
import TypeSketch.Proofs.Tree.Registrations

/-!
# Refused Values

Why inference fails, where kinds have been registered as scalar types or taken out of the
registry. Inference goes through a value as one reads it: the value first, then its items or
the values of its entries, one after another. It goes into a part only if values of its kind
are containers, and never into a key. The first value that it comes to whose kind is not
registered is what it ends with.

There is no other reason. The rules that are left are those of the built-in containers, each
of which applies to all values of its kind, and below an identifier every key makes an
identifier, so no name is refused.

## Main definitions

* `Value.reached`: The values that inference comes to, in order.
* `Value.firstRefused?`: The first of them that it refuses.
* `Inference.EndsWith`: What an attempt ends with.

## Theorems

* `Inference.EndsWith.bind`: One attempt after another.
* `Inference.endsWith_node`: What inference ends with.
* `Inference.outcome_of_infer`: When inference fails, with what, and how nodes are called.
-/

namespace TypeSketch

namespace Value

mutual

/-- The values that inference comes to: the value, and then its parts if values of its kind
    have some. Keys are none of them. -/
def reached (r : Registry) : Value → List Value
  | .atom a => [.atom a]
  | .sequence kind items =>
    .sequence kind items :: if r.isContainer (.sequence kind) then reachedItems r items else []
  | .mapping entries =>
    .mapping entries :: if r.isContainer .mapping then reachedEntries r entries else []

def reachedItems (r : Registry) : List Value → List Value
  | [] => []
  | item :: rest => reached r item ++ reachedItems r rest

def reachedEntries (r : Registry) : List (Value × Value) → List Value
  | [] => []
  | (_, item) :: rest => reached r item ++ reachedEntries r rest

end

/-- The first value among some whose kind is not registered. -/
def firstRefused? (r : Registry) (values : List Value) : Option Value :=
  values.find? fun w => (r.get? w.kind).isNone

theorem firstRefused?_append (r : Registry) (values others : List Value) :
    firstRefused? r (values ++ others) = (firstRefused? r values).or (firstRefused? r others) :=
  List.find?_append

theorem firstRefused?_cons (r : Registry) (v : Value) (values : List Value) :
    firstRefused? r (v :: values) =
      if r.get? v.kind = none then some v else firstRefused? r values := by
  rw [firstRefused?, List.find?_cons]
  cases r.get? v.kind <;> rfl

theorem exists_firstRefused?_eq_some_iff {r : Registry} {values : List Value} :
    (∃ w, firstRefused? r values = some w) ↔ ∃ w ∈ values, r.get? w.kind = none := by
  rw [← Option.isSome_iff_exists, firstRefused?, List.find?_isSome]
  simp only [Option.isNone_iff_eq_none]

/-- A value that is not gone into is all that there is to come to. -/
theorem reached_of_not_isContainer {r : Registry} {v : Value} (h : r.isContainer v.kind = false) :
    v.reached r = [v] := by
  cases v with
  | atom a => rfl
  | sequence kind items =>
    rw [Value.kind] at h
    rw [reached, h]
    rfl
  | mapping entries =>
    rw [Value.kind] at h
    rw [reached, h]
    rfl

end Value

namespace Inference

open Value Naming

/-- An attempt fails with a refused value, and goes through if there is none. -/
inductive EndsWith {α : Type} : Except InferenceError α → Option Value → Prop
  | refused (w : Value) : EndsWith (.error (.unsupportedType w.typeName)) (some w)
  | complete (a : α) : EndsWith (.ok a) none

section Attempts

variable {α β : Type} {x : Except InferenceError α} {refused other : Option Value}

/-- One attempt after another ends with what the first one refuses, or else the second one. -/
theorem EndsWith.bind {f : α → Except InferenceError β} (h : EndsWith x refused)
    (hnext : ∀ a, x = .ok a → EndsWith (f a) other) : EndsWith (x.bind f) (refused.or other) := by
  cases h with
  | refused w => exact EndsWith.refused w
  | complete a => exact hnext a rfl

theorem EndsWith.map {f : α → β} (h : EndsWith x refused) : EndsWith (x.map f) refused := by
  cases h with
  | refused w => exact EndsWith.refused w
  | complete a => exact EndsWith.complete (f a)

theorem EndsWith.eq_error_iff {e : InferenceError} (h : EndsWith x refused) :
    x = .error e ↔ ∃ w, refused = some w ∧ e = .unsupportedType w.typeName := by
  cases h with
  | refused w =>
    simp only [Except.error.injEq, Option.some.injEq, exists_eq_left']
    exact eq_comm
  | complete a => simp only [reduceCtorEq, false_and, exists_false]

end Attempts

section Nodes

variable {run : Inference} {name parent : String}

/-- Items are gone through one after another. -/
theorem endsWith_elementNodes (hparent : isIdentifier parent = true) {items : List Value}
    (h : ∀ item ∈ items, ∀ name, isIdentifier name = true →
      EndsWith (run.node name item) (firstRefused? run.registry (item.reached run.registry))) :
    EndsWith (elementNodes run parent items)
      (firstRefused? run.registry (reachedItems run.registry items)) := by
  induction items with
  | nil => exact EndsWith.complete []
  | cons item rest ih =>
    rw [elementNodes_cons, reachedItems, firstRefused?_append, child_eq_node hparent]
    refine (h item List.mem_cons_self _ (isIdentifier_childName hparent _)).bind fun t _ => ?_
    exact (ih fun other hother => h other (List.mem_cons_of_mem item hother)).map

/-- So are the values of entries. -/
theorem endsWith_fieldNodes (hparent : isIdentifier parent = true) {entries : List (Value × Value)}
    (h : ∀ e ∈ entries, ∀ name, isIdentifier name = true →
      EndsWith (run.node name e.2) (firstRefused? run.registry (e.2.reached run.registry)))
    (position : Nat) : EndsWith (fieldNodes run parent position entries)
      (firstRefused? run.registry (reachedEntries run.registry entries)) := by
  induction entries generalizing position with
  | nil => exact EndsWith.complete []
  | cons e rest ih =>
    rcases e with ⟨key, item⟩
    rw [fieldNodes_cons, reachedEntries, firstRefused?_append, child_eq_node hparent]
    refine (h (key, item) List.mem_cons_self _ (isIdentifier_childName hparent _)).bind
      fun t _ => ?_
    exact (ih (fun other hother => h other (List.mem_cons_of_mem _ hother)) (position + 1)).map

/-- A value that is not gone into is refused, or it is a scalar. -/
theorem endsWith_of_not_isContainer {v : Value} (h : run.registry.isContainer v.kind = false) :
    EndsWith (run.node name v) (firstRefused? run.registry (v.reached run.registry)) := by
  rw [reached_of_not_isContainer h, firstRefused?_cons]
  cases hget : run.registry.get? v.kind with
  | none =>
    rw [node, Builder.node_of_unregistered rfl hget]
    exact EndsWith.refused v
  | some specialization =>
    cases specialization with
    | scalar type =>
      rw [node_of_isNode (.scalar hget)]
      exact EndsWith.complete _
    | container rule =>
      rw [Registry.isContainer_iff.mpr ⟨rule, hget⟩] at h
      contradiction

/-- Inference ends with the first value of an unregistered kind that it comes to. -/
theorem endsWith_node (hregistry : run.registry.IsAdapted) (v : Value) :
    ∀ name, isIdentifier name = true →
      EndsWith (run.node name v) (firstRefused? run.registry (v.reached run.registry)) := by
  induction v with
  | atom a =>
    intro name _
    refine endsWith_of_not_isContainer ?_
    -- No rule of a container applies to an atom.
    rw [← Bool.not_eq_true, Registry.isContainer_iff]
    rintro ⟨rule, hget⟩
    rcases hregistry.container_cases hget with ⟨hkind, _⟩ | ⟨_, hkind, _⟩ <;> contradiction
  | sequence kind items ih =>
    intro name hname
    by_cases hcontainer : run.registry.isContainer (.sequence kind) = true
    · rcases Registry.isContainer_iff.mp hcontainer with ⟨rule, hget⟩
      rcases hregistry.container_cases hget with ⟨hkind, _⟩ | ⟨_, hkind, happlies⟩
      · contradiction
      · cases hkind
        -- The rule applies, so the outcome is that of the items.
        rcases happlies run.strategies.tupleSize with ⟨elementKind, hrule⟩
        rw [node, Builder.node_of_sequence rfl hget hrule, reached, if_pos hcontainer,
          firstRefused?_cons, Value.kind, hget, if_neg (Option.some_ne_none _)]
        exact (endsWith_elementNodes hname ih).map
    · exact endsWith_of_not_isContainer (Bool.not_eq_true _ ▸ hcontainer)
  | mapping entries ih =>
    intro name hname
    by_cases hcontainer : run.registry.isContainer .mapping = true
    · rcases Registry.isContainer_iff.mp hcontainer with ⟨rule, hget⟩
      rcases hregistry.container_cases hget with ⟨_, rfl⟩ | ⟨_, hkind, _⟩
      · rw [node, Builder.node_of_mapping rfl hget, if_pos rfl, reached, if_pos hcontainer,
          firstRefused?_cons, Value.kind, hget, if_neg (Option.some_ne_none _)]
        exact (endsWith_fieldNodes hname (fun e he => (ih e he).2) 0).map
      · contradiction
    · exact endsWith_of_not_isContainer (Bool.not_eq_true _ ▸ hcontainer)

end Nodes

/-- With registered scalar types and without some kinds, inference fails if and only if it comes
    to a value whose kind is not registered. It ends with the first such value, so no name is
    refused, and if there is none, then all nodes are called by identifiers. -/
theorem outcome_of_infer (run : Inference) (name : String) (v : Value)
    (hregistry : run.registry.IsAdapted) (hname : isIdentifier name = true) :
    ((∃ e, run.infer name v = .error e) ↔
      ∃ w ∈ v.reached run.registry, run.registry.get? w.kind = none) ∧
    (∀ e, run.infer name v = .error e ↔
      ∃ w, firstRefused? run.registry (v.reached run.registry) = some w ∧
        e = .unsupportedType w.typeName) ∧
    ∀ t, run.infer name v = .ok t → ∀ u ∈ t.nodes, isIdentifier u.name = true := by
  have hinfer : run.infer name v = run.node name v := by rw [infer_eq, if_pos hname]
  have hends := endsWith_node hregistry v name hname
  refine ⟨?_, fun e => ?_, fun t ht u hu => isIdentifier_of_infer ht hu⟩
  · rw [← exists_firstRefused?_eq_some_iff]
    simp only [hinfer, hends.eq_error_iff]
    constructor
    · rintro ⟨_, w, hw, _⟩
      exact ⟨w, hw⟩
    · rintro ⟨w, hw⟩
      exact ⟨_, w, hw, rfl⟩
  · rw [hinfer, hends.eq_error_iff]

/-- What is in a set is not looked at if sets are a scalar type, and a reserved word is a key as
    any other one. -/
theorem outcome_of_infer_bytes :
    ∃ run : Inference, run.registry =
        (Registry.standard.register (.sequence .set) (.scalar ⟨"Any", none⟩)).unregister (.atom .bytes) ∧
      run.infer "E" (.sequence .list [.sequence .set [.atom (.named "X")],
        .mapping [(.str "class", .atom (.bytes []))], .atom (.named "Y")]) =
          .error (.unsupportedType "bytes") ∧
      ∃ t, run.infer "E" (.sequence .list [.sequence .set [.atom (.named "X")],
        .mapping [(.str "class", .int 1)]]) = .ok t ∧
        t.nodes.map (·.name) = ["E", "ESet", "EDict", "EDictClass"] := by
  refine ⟨{ registry := _ }, rfl, ?_, _, rfl, by decide +kernel⟩
  refine ((outcome_of_infer _ _ _ ?_ (by decide +kernel)).2.1 _).mpr ⟨.atom (.bytes []), rfl, rfl⟩
  exact (Registry.IsAdapted.standard.register _ _).unregister _

end Inference

end TypeSketch
