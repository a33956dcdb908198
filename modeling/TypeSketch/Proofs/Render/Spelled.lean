import TypeSketch.Proofs.Expansion.OfShape
import TypeSketch.Proofs.Names.WellNamed
import TypeSketch.Proofs.Render.DeclarationText
import TypeSketch.Proofs.Render.References
import TypeSketch.Proofs.Tree.Builtin

/-!
# Spelled Trees

How a node of an inferred tree is written where it is used. There are three ways. A node
with a declaration is written as its name, a scalar type as its own, and any other
container as a constructor with arguments. Below a root these can be told apart, because
the name of a declaration is no word.

Everything that is written is plain, so it can be read back from its text.

## Main definitions

* `TypeTree.IsSpellable`: Trees as inference makes them, without opaque parts.

## Theorems

* `TypeTree.spellUse_cases`: How a node is written.
* `TypeTree.IsSpellable.isMember`, `TypeTree.IsSpellable.text_eq_iff`: Members of unions.
* `TypeTree.IsSpellable.isPlain_spellUse`, `TypeTree.IsSpellable.isPlain_spellDeclaration`: What
  is written is plain.
-/

namespace TypeSketch

namespace TypeTree

open Naming

/-- A tree that can be spelled and read back: it is coherent and well named, and its words
    are built-in. -/
structure IsSpellable (s : Strategies) (t : TypeTree) : Prop where
  coherent : Coherent s t
  wellNamed : WellNamed s t
  builtin : IsBuiltin t
  name_ne : t.name ≠ ""

/-- The constructor that a sequence is written with. -/
def sequenceConstructor (s : Strategies) : ElementKind → String
  | .list => listConstructor s.listStyle
  | .set false => "Set"
  | .set true => "FrozenSet"
  | .iterator => "Iterator"
  | .tuple _ => "Tuple"

/-- What is written behind the element type of a sequence. -/
def sequenceDots : ElementKind → List TypeExpr
  | .tuple .anySize => [.name "..."]
  | _ => []

/-- The constructors that sequences are written with. -/
def sequenceConstructors : List String :=
  ["List", "Sequence", "Set", "FrozenSet", "Iterator", "Tuple"]

/-- The constructors that generic mappings are written with. -/
def mappingConstructors : List String := ["Mapping", "Dict"]

/-- The constructors that containers are written with. -/
def constructors : List String := sequenceConstructors ++ mappingConstructors

variable {s : Strategies} {t c : TypeTree}

section Access

theorem IsSpellable.child (hc : c ∈ t.children) (h : IsSpellable s t) : IsSpellable s c where
  coherent := h.coherent.child hc
  wellNamed := h.wellNamed.child hc
  builtin := h.builtin.child hc
  name_ne := by
    rcases h.wellNamed.extends_child hc with ⟨suffix, ⟨first, rest, hsuffix, _⟩, hname⟩
    rw [hname, Ne, ← String.toList_eq_nil_iff, String.toList_append, hsuffix]
    exact List.append_ne_nil_of_right_ne_nil _ (List.cons_ne_nil _ _)

theorem IsSpellable.of_mem_nodes {u : TypeTree} (h : IsSpellable s t) (hu : u ∈ t.nodes) :
    IsSpellable s u :=
  forall_mem_nodes (fun _ _ hc ht => ht.child hc) h u hu

/-- Below a root no name is a word. -/
theorem IsSpellable.forall_children (h : IsSpellable s t) :
    ∀ c ∈ t.children, IsSpellable s c ∧ c.name ∉ words :=
  fun _ hc => ⟨h.child hc, (h.wellNamed.extends_child hc).not_mem_words h.name_ne⟩

end Access

section Forms

theorem spellSequence_fixed (elements : List (Spelling TypeExpr)) :
    (spellSequence s (.tuple .fixed) elements).written =
      .apply "Tuple" ((Spelling.listed (elements.map (·.written))).written ++
        if (elements.map (·.written)).isEmpty then [.name "..."] else []) := by
  rfl

/-- A sequence is written with its constructor and the union of its elements, unless it is
    a tuple of fixed size. -/
theorem spellSequence_of_ne_fixed {kind : ElementKind} (h : kind ≠ .tuple .fixed)
    (elements : List (Spelling TypeExpr)) :
    (spellSequence s kind elements).written = .apply (sequenceConstructor s kind)
      ((Spelling.union (elements.map (·.written))).written :: sequenceDots kind) := by
  cases kind with
  | list => rfl
  | set frozen => cases frozen <;> rfl
  | iterator => rfl
  | tuple size =>
    cases size with
    | fixed => contradiction
    | anySize => rfl

theorem sequenceConstructor_mem (s : Strategies) (kind : ElementKind) :
    sequenceConstructor s kind ∈ sequenceConstructors := by
  unfold sequenceConstructor
  split
  · cases s.listStyle <;> decide
  all_goals decide

theorem mappingConstructor_mem (style : DictStyle) :
    mappingConstructor style ∈ mappingConstructors := by
  cases style <;> decide

/-- A container that is no record is written as a constructor with arguments. -/
theorem spell_eq_apply (hrecord : t.isRecord = false) (hscalar : ∀ name v type, t ≠ .scalar name v type) :
    ∃ constructor ∈ constructors, ∃ arguments, (t.spell s).written = .apply constructor arguments := by
  cases t with
  | scalar name v type => exact absurd rfl (hscalar name v type)
  | mapping name v form height shape fields =>
    cases form with
    | record profile => contradiction
    | generic => exact ⟨_, List.mem_append_right _ (mappingConstructor_mem s.dictStyle), _, rfl⟩
  | sequence name v kind height shape elements =>
    by_cases hfixed : kind = .tuple .fixed
    · subst hfixed
      exact ⟨_, List.mem_append_left _ (sequenceConstructor_mem s (.tuple .fixed)), _, rfl⟩
    · exact ⟨_, List.mem_append_left _ (sequenceConstructor_mem s kind), _,
        spellSequence_of_ne_fixed hfixed _⟩

theorem isScalarNamed_expand (hscalar : ∀ name v type, t ≠ .scalar name v type) (n : String) :
    Expansion.isScalarNamed n t.expand = false := by
  cases t with
  | scalar name v type => exact absurd rfl (hscalar name v type)
  | mapping name v form height shape fields => cases form <;> rfl
  | sequence name v kind height shape elements => rfl

/-- A node is written as the name of its declaration, as a scalar type, or as a
    constructor with arguments. -/
theorem spellUse_cases (h : IsBuiltin t) :
    (t.isAliased s = true ∧ (t.spellUse s).written = .name t.name ∧
        ∀ n, Expansion.isScalarNamed n t.expand = false) ∨
      (t.isAliased s = false ∧ ∃ r ∈ scalarNames, (t.spellUse s).written = .name r ∧
        t.expand = .scalar r) ∨
      (t.isAliased s = false ∧ (∃ constructor ∈ constructors, ∃ arguments,
          (t.spellUse s).written = .apply constructor arguments) ∧
        ∀ n, Expansion.isScalarNamed n t.expand = false) := by
  -- The split is that of `spellUse`, and what has no declaration is a scalar type or not.
  by_cases haliased : t.isAliased s = true
  · have hscalar : ∀ name v type, t ≠ .scalar name v type := by
      rintro name v type rfl
      exact Bool.false_ne_true haliased
    rw [spellUse, if_pos haliased]
    exact Or.inl ⟨haliased, rfl, isScalarNamed_expand hscalar⟩
  · have hplain : t.isAliased s = false := Bool.not_eq_true _ ▸ haliased
    rw [spellUse, if_neg haliased]
    refine Or.inr ?_
    by_cases hscalar : ∃ name v type, t = .scalar name v type
    · rcases hscalar with ⟨name, v, type, rfl⟩
      rcases h with ⟨known⟩
      exact Or.inl ⟨rfl, type.rendered, known, rfl, rfl⟩
    · simp only [not_exists] at hscalar
      have hrecord : t.isRecord = false := by
        by_contra hrecord
        exact haliased (isAliased_of_isRecord (Bool.not_eq_false _ ▸ hrecord))
      exact Or.inr ⟨hplain, spell_eq_apply hrecord hscalar, isScalarNamed_expand hscalar⟩

end Forms

section Plain

theorem isPlain_of_mem_words {w : String} (h : w ∈ words) : Naming.IsPlain w := by
  have hall : ∀ w ∈ words, Naming.IsPlain w := by decide
  exact hall w h

theorem isPlain_of_mem_constructors {constructor : String} (h : constructor ∈ constructors) :
    Naming.IsPlain constructor := by
  have hall : ∀ constructor ∈ constructors, Naming.IsPlain constructor := by decide
  exact hall constructor h

theorem isPlain_any : (TypeExpr.name "Any").IsPlain :=
  TypeExpr.IsPlain.name (isPlain_of_mem_words (by decide))

theorem isPlain_dots : (TypeExpr.name "...").IsPlain :=
  TypeExpr.IsPlain.name (by decide)

/-- A union of plain types is plain. -/
theorem isPlain_union {types : List TypeExpr} (h : ∀ e ∈ types, e.IsPlain) :
    (Spelling.union types).written.IsPlain := by
  have hmembers : ∀ e ∈ Spelling.members types, e.IsPlain :=
    fun e he => h e (Spelling.mem_of_mem_members he).1
  have hunion : Naming.IsPlain "Union" := by decide
  rw [Spelling.union_written]
  split
  · exact isPlain_any
  · next single hsingle => exact hmembers single (by rw [hsingle]; exact List.mem_cons_self)
  · next several hnil _ => exact TypeExpr.IsPlain.apply hunion (fun hempty => hnil hempty) hmembers

theorem isPlain_listed {types : List TypeExpr} (h : ∀ e ∈ types, e.IsPlain) :
    (Spelling.listed types).written ≠ [] ∧ ∀ e ∈ (Spelling.listed types).written, e.IsPlain := by
  unfold Spelling.listed
  by_cases hempty : types.isEmpty = true
  · rw [if_pos hempty]
    refine ⟨List.cons_ne_nil _ _, fun e he => ?_⟩
    rw [List.mem_singleton.mp he]
    exact isPlain_any
  · rw [if_neg hempty]
    exact ⟨fun hnil => hempty (List.isEmpty_iff.mpr hnil), h⟩

theorem isPlain_spellSequence {kind : ElementKind} {elements : List (Spelling TypeExpr)}
    (h : ∀ e ∈ elements.map (·.written), e.IsPlain) :
    (spellSequence s kind elements).written.IsPlain := by
  by_cases hfixed : kind = .tuple .fixed
  · subst hfixed
    rw [spellSequence_fixed]
    rcases isPlain_listed h with ⟨hne, hplain⟩
    refine TypeExpr.IsPlain.apply (isPlain_of_mem_constructors (by decide))
      (List.append_ne_nil_of_left_ne_nil hne _) fun e he => ?_
    -- The argument behind the elements is the empty tuple, if there are no elements.
    rcases List.mem_append.mp he with he | he
    · exact hplain e he
    · split at he
      · rw [List.mem_singleton.mp he]
        exact isPlain_dots
      · exact absurd he List.not_mem_nil
  · rw [spellSequence_of_ne_fixed hfixed]
    refine TypeExpr.IsPlain.apply (isPlain_of_mem_constructors
      (List.mem_append_left _ (sequenceConstructor_mem s kind))) (List.cons_ne_nil _ _) fun e he => ?_
    -- The union comes first, and dots stand behind it if the tuple is of any size.
    rcases List.mem_cons.mp he with rfl | he
    · exact isPlain_union h
    · unfold sequenceDots at he
      split at he
      · rw [List.mem_singleton.mp he]
        exact isPlain_dots
      · exact absurd he List.not_mem_nil

theorem isPlain_spellGeneric {keyTypes : List String} {values : List (Spelling TypeExpr)}
    (hkeys : ∀ k ∈ keyTypes, k ∈ keyTypeNames) (h : ∀ e ∈ values.map (·.written), e.IsPlain) :
    (spellGeneric s keyTypes values).written.IsPlain := by
  refine TypeExpr.IsPlain.apply (isPlain_of_mem_constructors
    (List.mem_append_right _ (mappingConstructor_mem s.dictStyle))) (List.cons_ne_nil _ _) fun e he => ?_
  rcases List.mem_cons.mp he with rfl | he
  · refine isPlain_union (List.forall_mem_map.mpr fun k hk => ?_)
    exact TypeExpr.IsPlain.name (isPlain_of_mem_words (List.mem_append_left _ (hkeys k hk)))
  · rw [List.mem_singleton.mp he]
    exact isPlain_union h

theorem isPlain_wrap {constructor : String} {argument : Spelling TypeExpr}
    (hconstructor : Naming.IsPlain constructor) (h : argument.written.IsPlain) :
    (argument.wrap constructor).written.IsPlain := by
  refine TypeExpr.IsPlain.apply hconstructor (List.cons_ne_nil _ _) fun e he => ?_
  rw [List.mem_singleton.mp he]
  exact h

theorem isPlain_spellField {profile : RecordProfile} {key : Value} (h : (c.spellUse s).written.IsPlain) :
    (spellField s profile key c).written.2.IsPlain := by
  have hoptional : Naming.IsPlain "NotRequired" := by decide
  have hreadOnly : Naming.IsPlain "ReadOnly" := by decide
  unfold spellField
  dsimp only
  split <;> split
  · exact isPlain_wrap hoptional (isPlain_wrap hreadOnly h)
  · exact isPlain_wrap hoptional h
  · exact isPlain_wrap hreadOnly h
  · exact h

/-- The fields of a record as they are written. -/
def rows (s : Strategies) (profile : RecordProfile) (fields : List (Value × TypeTree)) :
    List (String × TypeExpr) :=
  fields.map fun f => (spellField s profile f.1 f.2).written

theorem spellDeclaration_record (name : String) (v : Value) (profile : RecordProfile) (height : Nat)
    (shape : Shape) (fields : List (Value × TypeTree)) :
    (spellDeclaration s (.mapping name v (.record profile) height shape fields)).written =
      if profile.functional then .functionalRecord name (rows s profile fields)
      else .record name profile.doc (rows s profile fields) := by
  rw [spellDeclaration, rows, List.map_map]
  rfl

/-- The type of a node is plain if those of its children are. -/
theorem IsSpellable.isPlain_spell (h : IsSpellable s t) (hrecord : t.isRecord = false)
    (hchildren : ∀ c ∈ t.children, (c.spellUse s).written.IsPlain) : (t.spell s).written.IsPlain := by
  have huses : ∀ e ∈ (t.children.map (spellUse s)).map (·.written), e.IsPlain := by
    simpa only [List.forall_mem_map] using hchildren
  -- The words of a scalar and of the keys are built in, and the rest comes from the children.
  rcases h.builtin with ⟨known⟩ | ⟨_, keys_known⟩ | _
  · exact TypeExpr.IsPlain.name
      (isPlain_of_mem_words (List.mem_append_left _ (List.mem_append_left _ known)))
  · next form _ _ _ _ =>
    cases form with
    | record profile => contradiction
    | generic =>
      refine isPlain_spellGeneric (List.forall_mem_map.mpr (keys_known rfl)) ?_
      rw [spellFieldUses_eq_map]
      exact huses
  · refine isPlain_spellSequence ?_
    rw [spellElementUses_eq_map]
    exact huses

/-- What stands where a node is used is plain. -/
theorem IsSpellable.isPlain_spellUse (h : IsSpellable s t) : (t.spellUse s).written.IsPlain := by
  induction t using induct_children with
  | node t ih =>
    by_cases haliased : t.isAliased s = true
    · rw [spellUse, if_pos haliased]
      exact TypeExpr.IsPlain.name (h.wellNamed.isPlain haliased)
    · rw [spellUse, if_neg haliased]
      refine h.isPlain_spell ?_ fun c hc => ih c hc (h.child hc)
      by_contra hrecord
      exact haliased (isAliased_of_isRecord (Bool.not_eq_false _ ▸ hrecord))

/-- The declaration of a node with a plain name is plain. -/
theorem IsSpellable.isPlain_spellDeclaration (h : IsSpellable s t) (hname : Naming.IsPlain t.name) :
    (t.spellDeclaration s).written.IsPlain := by
  have hchildren : ∀ c ∈ t.children, (c.spellUse s).written.IsPlain :=
    fun c hc => (h.child hc).isPlain_spellUse
  by_cases hrecord : t.isRecord = true
  · cases t with
    | scalar name v type => contradiction
    | sequence name v kind height shape elements => contradiction
    | mapping name v form height shape fields =>
      cases form with
      | generic => contradiction
      | record profile =>
        rcases h.coherent with _ | ⟨_, _, hfits, _, _⟩
        have htypes : ∀ f ∈ rows s profile fields, f.2.IsPlain := List.forall_mem_map.mpr fun f hf =>
          isPlain_spellField (hchildren f.2 (List.mem_map_of_mem hf))
        rw [spellDeclaration_record]
        -- Keys in literals may hold anything, but the keys of a class stand there as names.
        by_cases hfunctional : profile.functional = true
        · rw [if_pos hfunctional]
          exact ⟨hname, htypes⟩
        · rw [if_neg hfunctional]
          refine ⟨hname, fun row hrow => ⟨?_, htypes row hrow⟩⟩
          rcases List.mem_map.mp hrow with ⟨f, hf, rfl⟩
          exact isPlain_of_isIdentifier
            (hfits.2 (Bool.not_eq_true _ ▸ hfunctional) f.1 (List.mem_map_of_mem hf))
  -- Anything but a record is declared by giving its type a name.
  · rw [spellDeclaration_of_not_record (Bool.not_eq_true _ ▸ hrecord)]
    exact ⟨hname, h.isPlain_spell (Bool.not_eq_true _ ▸ hrecord) hchildren⟩

end Plain

section Members

/-- A node below a root can be a member of a union. -/
theorem IsSpellable.isMember (h : IsSpellable s t) (hname : t.name ∉ words) :
    (t.spellUse s).written.IsMember := by
  have hscalars : "Any" ∉ scalarNames := by decide
  have hconstructors : "Union" ∉ constructors := by decide
  rcases spellUse_cases h.builtin with ⟨_, hw, _⟩ | ⟨_, r, hr, hw, _⟩ | ⟨_, ⟨_, hc, _, hw⟩, _⟩ <;> rw [hw]
  · refine ⟨fun heq => hname ?_, fun _ => TypeExpr.noConfusion⟩
    rw [TypeExpr.name.inj heq]
    decide
  · refine ⟨fun heq => hscalars ?_, fun _ => TypeExpr.noConfusion⟩
    rw [← TypeExpr.name.inj heq]
    exact hr
  · refine ⟨TypeExpr.noConfusion, fun _ heq => hconstructors ?_⟩
    rw [← (TypeExpr.apply.inj heq).1]
    exact hc

/-- Below a root only a scalar type is written as one. -/
theorem IsSpellable.text_eq_iff (h : IsSpellable s t) (hname : t.name ∉ words) {n : String}
    (hn : n ∈ scalarNames) :
    (t.spellUse s).written.text = n ↔ Expansion.isScalarNamed n t.expand = true := by
  have hword : n ∈ words := List.mem_append_left _ (List.mem_append_left _ hn)
  have hplain : (TypeExpr.name n).IsPlain := TypeExpr.IsPlain.name (isPlain_of_mem_words hword)
  have htext : (t.spellUse s).written.text = n ↔ (t.spellUse s).written = .name n := by
    refine ⟨fun heq => TypeExpr.text_injective h.isPlain_spellUse hplain heq, fun heq => ?_⟩
    rw [heq, TypeExpr.text]
  rw [htext]
  -- Only a scalar that is written by its name can be written as this one.
  rcases spellUse_cases h.builtin with ⟨_, hw, hexpand⟩ | ⟨_, r, hr, hw, hexpand⟩ |
    ⟨_, ⟨_, hc, _, hw⟩, hexpand⟩
  · rw [hw, hexpand]
    refine iff_of_false (fun heq => hname ?_) Bool.false_ne_true
    rw [TypeExpr.name.inj heq]
    exact hword
  · rw [hw, hexpand, Expansion.isScalarNamed, decide_eq_true_eq, TypeExpr.name.injEq]
    exact ⟨fun heq => by rw [heq]; rfl, fun heq => Expansion.Head.scalar.inj heq⟩
  · rw [hw, hexpand]
    exact iff_of_false TypeExpr.noConfusion Bool.false_ne_true

end Members

end TypeTree

end TypeSketch
