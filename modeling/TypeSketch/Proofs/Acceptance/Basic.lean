import Mathlib.Data.List.Forall2
import TypeSketch.Proofs.Tree.Registrations
import TypeSketch.Proofs.Value.Keys

/-!
# Values That a Type Accepts

When a value is of the type that a tree stands for. A scalar type accepts what is
registered under its name. A collection accepts a container of its kind if each item is
accepted by one of its element types, and a tuple of fixed size if the items are accepted
one by one; the tuple type without items stands for tuples of any items. A generic
mapping looks at the types of the keys and at the values. A record accepts a mapping if
each key is one of its fields and the value is of that field's type, and if no required
field is missing.

An integer is accepted wherever a number with a fraction is one of several types. It is
not accepted where such a number is the only type that is asked for, as in a record.

Acceptance is a program, so whether an example is of a type can be computed.

## Main definitions

* `Registry.extended`: The built-in types and further ones known by name.
* `Registry.rendered?`: The name that a value's type is spelled by.
* `TypeTree.accepts`: Whether a value is of a type.

## Theorems

* `TypeTree.acceptsAny_iff`, `TypeTree.acceptsField_eq`, `TypeTree.acceptsEach_iff`: What the
  parts of the program compute.
* `TypeTree.accepts_record_iff`, `TypeTree.accepts_generic_iff`, `TypeTree.accepts_fixed_iff`,
  `TypeTree.accepts_collection_iff`: What each kind of type accepts.
* `Registry.get?_extended_of_container`: Containers stay as they are registered.
-/

namespace TypeSketch

namespace Registry

/-- The registrations of the built-in types and of types that only their names are known
    of, one after another. -/
def extended (types : List (String × ScalarType)) : Registry :=
  types.foldl (fun r type => r.registerNamed type.1 type.2) standard

/-- The name by which the type of a value is spelled, if it is registered as a scalar. -/
def rendered? (r : Registry) (v : Value) : Option String :=
  match r.get? v.kind with
  | some (.scalar type) => some type.rendered
  | _ => none

/-- Types known by name do not touch the registrations of containers. -/
theorem get?_extended_of_container {types : List (String × ScalarType)} {kind : ValueKind}
    (h : ∀ atomKind, kind ≠ .atom atomKind) : (extended types).get? kind = standard.get? kind := by
  have hfold : ∀ r : Registry,
      (types.foldl (fun r type => r.registerNamed type.1 type.2) r).get? kind = r.get? kind := by
    induction types with
    | nil => exact fun r => rfl
    | cons type rest ih =>
      intro r
      rw [List.foldl_cons, ih, get?_registerNamed_of_ne (h _)]
  exact hfold standard

end Registry

/-- The kind of the containers that a kind of collections stands for. -/
def ElementKind.sequenceKind : ElementKind → SequenceKind
  | list => .list
  | set false => .set
  | set true => .frozenset
  | iterator => .iterator
  | tuple _ => .tuple

namespace TypeTree

/-- Whether a node is the scalar type of this name. -/
def isScalarNamed (name : String) : TypeTree → Bool
  | scalar _ _ type => type.rendered = name
  | _ => false

mutual

/-- Whether a value is of the type that a tree stands for. -/
def accepts (r : Registry) : TypeTree → Value → Bool
  | scalar _ _ type, v => r.rendered? v = some type.rendered
  | mapping _ _ form _ _ fields, .mapping entries =>
    match form with
    | .record profile =>
      entries.all (fun (key, item) => acceptsField r fields key item) &&
        fields.all fun (key, _) =>
          profile.optionalFields.contains key.keyText || entries.any (·.1.same key)
    | .generic =>
      let keyTypes := NameSet.ofList (fields.map (·.1.typeName))
      entries.all fun (key, item) =>
        (keyTypes.contains key.typeName || key.typeName = "int" && keyTypes.contains "float") &&
          acceptsAnyField r fields item
  | sequence _ _ kind _ _ elements, .sequence sequenceKind items =>
    sequenceKind = kind.sequenceKind &&
      if kind = .tuple .fixed then elements.isEmpty || acceptsEach r elements items
      else items.all (acceptsAny r elements ·)
  | _, _ => false

/-- Whether a value is of the type of the field with a key. -/
def acceptsField (r : Registry) : List (Value × TypeTree) → Value → Value → Bool
  | [], _, _ => false
  | (k, child) :: rest, key, v => if k.same key then accepts r child v else acceptsField r rest key v

/-- Whether a value is of one of several types. An integer is of the type `float`. -/
def acceptsAny (r : Registry) : List TypeTree → Value → Bool
  | [], _ => false
  | child :: rest, v =>
    accepts r child v || (child.isScalarNamed "float" && r.rendered? v = some "int") ||
      acceptsAny r rest v

/-- Whether a value is of the type of one of several fields. -/
def acceptsAnyField (r : Registry) : List (Value × TypeTree) → Value → Bool
  | [], _ => false
  | (_, child) :: rest, v =>
    accepts r child v || (child.isScalarNamed "float" && r.rendered? v = some "int") ||
      acceptsAnyField r rest v

/-- Whether values are of the types one by one. -/
def acceptsEach (r : Registry) : List TypeTree → List Value → Bool
  | [], [] => true
  | child :: rest, v :: items => accepts r child v && acceptsEach r rest items
  | _, _ => false

end

variable {r : Registry}

theorem acceptsField_eq (fields : List (Value × TypeTree)) (key v : Value) :
    acceptsField r fields key v = (Value.entry? fields key).any (accepts r · v) := by
  induction fields with
  | nil => rfl
  | cons f rest ih =>
    rw [acceptsField, Value.entry?, List.find?_cons]
    by_cases h : f.1.same key = true
    · simp only [h, if_true, Option.map_some, Option.any_some]
    · rw [if_neg h, ih, Value.entry?]
      rw [Bool.not_eq_true] at h
      simp only [h]

/-- A value is of one of several types if one accepts it, or if it is an integer and one
    is `float`. -/
theorem acceptsAny_iff {children : List TypeTree} {v : Value} :
    acceptsAny r children v = true ↔
      (∃ c ∈ children, accepts r c v = true) ∨
        r.rendered? v = some "int" ∧ ∃ c ∈ children, c.isScalarNamed "float" = true := by
  induction children with
  | nil => simp [acceptsAny]
  | cons child rest ih =>
    simp only [acceptsAny, Bool.or_eq_true, Bool.and_eq_true, decide_eq_true_eq, ih,
      List.mem_cons, exists_eq_or_imp]
    -- The list asks each child for both ways to accept the value, and the union asks for one way
    -- and then for a child.
    constructor
    · rintro ((h | ⟨hfloat, hint⟩) | h | ⟨hint, hfloat⟩)
      · exact Or.inl (Or.inl h)
      · exact Or.inr ⟨hint, Or.inl hfloat⟩
      · exact Or.inl (Or.inr h)
      · exact Or.inr ⟨hint, Or.inr hfloat⟩
    · rintro ((h | h) | ⟨hint, hfloat | hfloat⟩)
      · exact Or.inl (Or.inl h)
      · exact Or.inr (Or.inl h)
      · exact Or.inl (Or.inr ⟨hfloat, hint⟩)
      · exact Or.inr (Or.inr ⟨hint, hfloat⟩)

theorem acceptsAnyField_eq (fields : List (Value × TypeTree)) (v : Value) :
    acceptsAnyField r fields v = acceptsAny r (fields.map (·.2)) v := by
  induction fields with
  | nil => rfl
  | cons f rest ih => rw [acceptsAnyField, ih, List.map_cons, acceptsAny]

theorem acceptsEach_iff {children : List TypeTree} {items : List Value} :
    acceptsEach r children items = true ↔
      List.Forall₂ (fun c v => accepts r c v = true) children items := by
  induction children generalizing items with
  | nil =>
    cases items with
    | nil => simp only [acceptsEach, List.Forall₂.nil]
    | cons v items => simp only [acceptsEach, Bool.false_eq_true, List.forall₂_nil_left_iff, reduceCtorEq]
  | cons child rest ih =>
    cases items with
    | nil => simp only [acceptsEach, Bool.false_eq_true, List.forall₂_nil_right_iff, reduceCtorEq]
    | cons v items => rw [acceptsEach, Bool.and_eq_true, ih, List.forall₂_cons]

variable {name : String} {origin v : Value} {height : Nat} {shape : Shape}

/-- A record accepts the mappings whose entries belong to its fields and which have an
    entry for each required field. -/
theorem accepts_record_iff {profile : RecordProfile} {fields : List (Value × TypeTree)} :
    accepts r (.mapping name origin (.record profile) height shape fields) v = true ↔
      ∃ entries, v = .mapping entries ∧
        (∀ e ∈ entries, ∃ c, Value.entry? fields e.1 = some c ∧ accepts r c e.2 = true) ∧
        ∀ f ∈ fields, f.1.keyText ∉ profile.optionalFields → ∃ e ∈ entries, e.1.same f.1 = true := by
  cases v with
  | atom a => simp [accepts]
  | sequence kind items => simp [accepts]
  | mapping entries =>
    simp only [accepts, Bool.and_eq_true, List.all_eq_true, acceptsField_eq, Option.any_eq_true,
      Bool.or_eq_true, NameSet.contains_iff, List.any_eq_true, Value.mapping.injEq,
      or_iff_not_imp_left]
    constructor
    · rintro ⟨hentries, hfields⟩
      exact ⟨entries, rfl, hentries, hfields⟩
    · rintro ⟨_, rfl, hentries, hfields⟩
      exact ⟨hentries, hfields⟩

theorem accepts_generic_iff {fields : List (Value × TypeTree)} :
    accepts r (.mapping name origin .generic height shape fields) v = true ↔
      ∃ entries, v = .mapping entries ∧ ∀ e ∈ entries,
        (e.1.typeName ∈ NameSet.ofList (fields.map (·.1.typeName)) ∨
          e.1.typeName = "int" ∧ "float" ∈ NameSet.ofList (fields.map (·.1.typeName))) ∧
        acceptsAny r (fields.map (·.2)) e.2 = true := by
  cases v with
  | atom a => simp [accepts]
  | sequence kind items => simp [accepts]
  | mapping entries =>
    simp only [accepts, Bool.and_eq_true, List.all_eq_true, acceptsAnyField_eq, Bool.or_eq_true,
      NameSet.contains_iff, decide_eq_true_eq, Value.mapping.injEq]
    constructor
    · exact fun hentries => ⟨entries, rfl, hentries⟩
    · rintro ⟨_, rfl, hentries⟩
      exact hentries

theorem accepts_fixed_iff {elements : List TypeTree} :
    accepts r (.sequence name origin (.tuple .fixed) height shape elements) v = true ↔
      ∃ items, v = .sequence .tuple items ∧
        (elements = [] ∨ List.Forall₂ (fun c w => accepts r c w = true) elements items) := by
  cases v with
  | atom a => simp [accepts]
  | mapping entries => simp [accepts]
  | sequence kind items =>
    simp only [accepts, Bool.and_eq_true, decide_eq_true_eq, if_true, Bool.or_eq_true,
      List.isEmpty_iff, acceptsEach_iff, Value.sequence.injEq]
    constructor
    · rintro ⟨rfl, h⟩
      exact ⟨items, ⟨rfl, rfl⟩, h⟩
    · rintro ⟨_, ⟨rfl, rfl⟩, h⟩
      exact ⟨rfl, h⟩

theorem accepts_collection_iff {kind : ElementKind} (hkind : kind ≠ .tuple .fixed)
    {elements : List TypeTree} :
    accepts r (.sequence name origin kind height shape elements) v = true ↔
      ∃ items, v = .sequence kind.sequenceKind items ∧
        ∀ w ∈ items, acceptsAny r elements w = true := by
  cases v with
  | atom a => simp [accepts]
  | mapping entries => simp [accepts]
  | sequence sequenceKind items =>
    simp only [accepts, if_neg hkind, Bool.and_eq_true, decide_eq_true_eq, List.all_eq_true,
      Value.sequence.injEq]
    constructor
    · rintro ⟨rfl, h⟩
      exact ⟨items, ⟨rfl, rfl⟩, h⟩
    · rintro ⟨_, ⟨rfl, rfl⟩, h⟩
      exact ⟨rfl, h⟩

end TypeTree

end TypeSketch
