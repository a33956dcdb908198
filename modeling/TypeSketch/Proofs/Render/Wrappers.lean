import TypeSketch.Imports
import TypeSketch.Proofs.Render.Constructors
import TypeSketch.Proofs.Tree.Unmerged

/-!
# Wrappers of Optional Fields

`NotRequired` is written around the type of a field that may be missing, and nowhere else. A tree
in which no field may be missing is rendered without it, and a session takes it as a symbol
only if a scalar type has been registered with that symbol.

What is spelled of a node is followed from the children on. Containers and unions are written
with their own constructors, and a name that stands for a declaration or for a scalar type is
none.

## Main definitions

* `TypeTree.BringsWrapper`: Trees with a scalar type that has the symbol itself.
* `TypeTree.IsUnwrapped`: What is spelled without the wrapper.

## Theorems

* `TypeTree.isUnwrapped_spell`, `TypeTree.isUnwrapped_spellDeclaration`: What is spelled of a node.
* `Session.isUnwrapped_declare`: What a session writes and takes.
* `Inference.unmerged_of_similarity`: Trees and modules if all fields have to be shared.
-/

namespace TypeSketch

namespace TypeTree

open Spelling

/-- There is a scalar type in the tree that takes the wrapper as its own symbol. -/
def BringsWrapper (t : TypeTree) : Prop :=
  ∃ name v type, scalar name v type ∈ t.nodes ∧ type.symbol = some "NotRequired"

/-- The wrapper is not written, and it is taken only for a scalar type in the tree. -/
structure IsUnwrapped {α : Type} (t : TypeTree) (constructors : α → List String)
    (spelling : Spelling α) : Prop where
  not_written : "NotRequired" ∉ constructors spelling.written
  of_taken : "NotRequired" ∈ spelling.symbols → t.BringsWrapper

variable {s : Strategies} {t c : TypeTree}

theorem BringsWrapper.of_mem_nodes {u : TypeTree} (hu : u ∈ t.nodes) (h : u.BringsWrapper) :
    t.BringsWrapper := by
  rcases h with ⟨name, v, type, hnode, hsymbol⟩
  exact ⟨name, v, type, mem_nodes_trans hu hnode, hsymbol⟩

theorem IsUnwrapped.of_child {α : Type} {constructors : α → List String} {spelling : Spelling α}
    (hc : c ∈ t.children) (h : c.IsUnwrapped constructors spelling) :
    t.IsUnwrapped constructors spelling :=
  ⟨h.not_written, fun htaken =>
    (h.of_taken htaken).of_mem_nodes (mem_nodes_of_child hc (mem_nodes_self c))⟩

/-- Several spellings together take the wrapper only if one of them does. -/
theorem bringsWrapper_of_mem_flatMap {α : Type} {constructors : α → List String}
    {spellings : List (Spelling α)}
    (h : ∀ spelling ∈ spellings, t.IsUnwrapped constructors spelling)
    (hmem : "NotRequired" ∈ spellings.flatMap (·.symbols)) : t.BringsWrapper := by
  rcases List.mem_flatMap.mp hmem with ⟨spelling, hspelling, hsymbol⟩
  exact (h spelling hspelling).of_taken hsymbol

section Types

theorem not_mem_constructors_name (n : String) :
    "NotRequired" ∉ (TypeExpr.name n).constructors := by
  rw [TypeExpr.constructors]
  split
  · decide
  · exact List.not_mem_nil

/-- A union is neither written with the wrapper nor does it take it itself. -/
theorem not_mem_union (types : List TypeExpr) (h : ∀ e ∈ types, "NotRequired" ∉ e.constructors) :
    "NotRequired" ∉ (Spelling.union types).written.constructors ∧
      "NotRequired" ∉ (Spelling.union types).symbols := by
  have hmembers : ∀ e ∈ members types, "NotRequired" ∉ e.constructors :=
    fun e he => h e (mem_of_mem_members he).1
  rw [union_eq]
  match members types, hmembers with
  | [], _ => exact ⟨not_mem_constructors_name "Any", by decide⟩
  | [single], hmembers => exact ⟨hmembers single List.mem_cons_self, List.not_mem_nil⟩
  | first :: second :: rest, hmembers =>
    have hsymbols : "NotRequired" ∉ ["Union"] := by decide
    refine ⟨?_, hsymbols⟩
    rw [TypeExpr.constructors_apply, List.mem_cons, List.mem_flatMap, not_or]
    exact ⟨by decide, fun ⟨e, he, hmem⟩ => hmembers e he hmem⟩

/-- The same for a list of types. -/
theorem not_mem_listed (types : List TypeExpr) (h : ∀ e ∈ types, "NotRequired" ∉ e.constructors) :
    (∀ e ∈ (Spelling.listed types).written, "NotRequired" ∉ e.constructors) ∧
      "NotRequired" ∉ (Spelling.listed types).symbols := by
  unfold Spelling.listed
  split
  · exact ⟨List.forall_mem_singleton.mpr (not_mem_constructors_name "Any"), by decide⟩
  · exact ⟨h, List.not_mem_nil⟩

theorem IsUnwrapped.wrap {constructor : String} {argument : Spelling TypeExpr}
    (h : t.IsUnwrapped TypeExpr.constructors argument) (hne : "NotRequired" ≠ constructor) :
    t.IsUnwrapped TypeExpr.constructors (argument.wrap constructor) := by
  constructor
  · rw [Spelling.wrap, TypeExpr.constructors_apply, List.flatMap_singleton, List.mem_cons, not_or]
    exact ⟨hne, h.not_written⟩
  · exact fun hmem => h.of_taken ((List.mem_cons.mp hmem).resolve_left hne)

end Types

section Containers

variable {elements : List (Spelling TypeExpr)}

theorem isUnwrapped_spellSequence {kind : ElementKind}
    (h : ∀ e ∈ elements, t.IsUnwrapped TypeExpr.constructors e) :
    t.IsUnwrapped TypeExpr.constructors (spellSequence s kind elements) := by
  have htypes : ∀ e ∈ elements.map (·.written), "NotRequired" ∉ e.constructors :=
    List.forall_mem_map.mpr fun e he => (h e he).not_written
  -- A tuple of fixed size lists its elements, and all other sequences have their union.
  have hdots := not_mem_constructors_name "..."
  by_cases hfixed : kind = .tuple .fixed
  · subst hfixed
    have hlisted := not_mem_listed _ htypes
    constructor
    · rw [spellSequence_fixed, TypeExpr.constructors_apply, List.flatMap_append, List.mem_cons,
        List.mem_append, not_or, not_or]
      refine ⟨by decide, fun hmem => ?_, fun hmem => ?_⟩
      · rcases List.mem_flatMap.mp hmem with ⟨e, he, hmem⟩
        exact hlisted.1 e he hmem
      · split at hmem
        · rw [List.flatMap_singleton] at hmem
          exact hdots hmem
        · exact absurd hmem List.not_mem_nil
    · intro hmem
      rcases List.mem_append.mp hmem with hmem | hmem
      · exact bringsWrapper_of_mem_flatMap h ((List.mem_cons.mp hmem).resolve_left (by decide))
      · exact absurd hmem hlisted.2
  · have hunion := not_mem_union _ htypes
    -- No constructor of a sequence is the wrapper, so it could come from the union only.
    have hconstructor : "NotRequired" ≠ sequenceConstructor s kind := by
      intro heq
      have hmem := sequenceConstructor_mem s kind
      rw [← heq] at hmem
      exact absurd hmem (by decide)
    constructor
    · rw [spellSequence_of_ne_fixed hfixed, TypeExpr.constructors_apply, List.flatMap_cons,
        constructors_sequenceDots, List.append_nil, List.mem_cons, not_or]
      exact ⟨hconstructor, hunion.1⟩
    · rw [spellSequence_symbols_of_ne_fixed hfixed]
      intro hmem
      rcases List.mem_append.mp ((List.mem_cons.mp hmem).resolve_left hconstructor) with hmem | hmem
      · exact bringsWrapper_of_mem_flatMap h hmem
      · exact absurd hmem hunion.2

theorem isUnwrapped_spellGeneric {keyTypes : List String}
    (h : ∀ e ∈ elements, t.IsUnwrapped TypeExpr.constructors e) :
    t.IsUnwrapped TypeExpr.constructors (spellGeneric s keyTypes elements) := by
  have hkeys := not_mem_union (keyTypes.map TypeExpr.name)
    (List.forall_mem_map.mpr fun k _ => not_mem_constructors_name k)
  have hvalues := not_mem_union (elements.map (·.written))
    (List.forall_mem_map.mpr fun e he => (h e he).not_written)
  have hconstructor : "NotRequired" ≠ mappingConstructor s.dictStyle := by
    cases s.dictStyle <;> decide
  dsimp only [spellGeneric]
  constructor
  · rw [TypeExpr.constructors_apply, List.flatMap_cons, List.flatMap_singleton, List.mem_cons,
      List.mem_append, not_or, not_or]
    exact ⟨hconstructor, hkeys.1, hvalues.1⟩
  · -- A symbol comes from the constructor, the keys or the values.
    intro hmem
    simp only [List.cons_append, List.mem_cons, List.mem_append] at hmem
    rcases hmem with heq | (hmem | hmem) | hmem
    · exact absurd heq hconstructor
    · exact absurd hmem hkeys.2
    · exact bringsWrapper_of_mem_flatMap h hmem
    · exact absurd hmem hvalues.2

end Containers

section Nodes

theorem isUnwrapped_name (t : TypeTree) (n : String) :
    t.IsUnwrapped TypeExpr.constructors ⟨.name n, []⟩ :=
  ⟨not_mem_constructors_name n, fun hmem => absurd hmem List.not_mem_nil⟩

theorem isUnwrapped_spellUse (h : t.IsUnwrapped TypeExpr.constructors (t.spell s)) :
    t.IsUnwrapped TypeExpr.constructors (t.spellUse s) := by
  unfold spellUse
  split
  · exact isUnwrapped_name t t.name
  · exact h

/-- No type is written with the wrapper. -/
theorem isUnwrapped_spell (s : Strategies) (t : TypeTree) :
    t.IsUnwrapped TypeExpr.constructors (t.spell s) := by
  induction t using induct_children with
  | node t ih =>
    have huses : ∀ e ∈ t.children.map (spellUse s), t.IsUnwrapped TypeExpr.constructors e :=
      List.forall_mem_map.mpr fun c hc => (isUnwrapped_spellUse (ih c hc)).of_child hc
    -- A record is used by its name, and only a registered scalar brings symbols of its own.
    cases t with
    | scalar name v type =>
      refine ⟨not_mem_constructors_name type.rendered, fun hmem => ?_⟩
      exact ⟨name, v, type, mem_nodes_self _, by simpa [spell] using hmem⟩
    | mapping name v form height shape fields =>
      cases form with
      | record profile => exact isUnwrapped_name _ name
      | generic =>
        rw [spell, spellFieldUses_eq_map]
        exact isUnwrapped_spellGeneric huses
    | sequence name v kind height shape elements =>
      rw [spell, spellElementUses_eq_map]
      exact isUnwrapped_spellSequence huses

/-- A field that has to be there is written without the wrapper. -/
theorem isUnwrapped_spellField {profile : RecordProfile} {key : Value}
    (hprofile : profile.optionalFields = ∅)
    (h : t.IsUnwrapped TypeExpr.constructors (c.spellUse s)) :
    t.IsUnwrapped (·.2.constructors) (spellField s profile key c) := by
  have hrequired : profile.optionalFields.contains key.keyText = false := by
    rw [NameSet.contains_eq_false_iff, hprofile]
    exact NameSet.not_mem_empty _
  have hfield : ∀ {type : Spelling TypeExpr}, t.IsUnwrapped TypeExpr.constructors type →
      t.IsUnwrapped (fun row : String × TypeExpr => row.2.constructors)
        ⟨(key.keyText, type.written), type.symbols⟩ :=
    fun htype => ⟨htype.not_written, htype.of_taken⟩
  dsimp only [spellField]
  rw [hrequired, if_neg Bool.false_ne_true]
  split
  · exact hfield (h.wrap (by decide))
  · exact hfield h

/-- A declaration is written without the wrapper if no field may be missing. -/
theorem isUnwrapped_spellDeclaration (s : Strategies) (h : t.RequiresAll) :
    t.IsUnwrapped Declaration.constructors (t.spellDeclaration s) := by
  by_cases hrecord : t.isRecord = true
  · rcases exists_eq_of_isRecord hrecord with ⟨name, v, profile, height, shape, fields, rfl⟩
    have hfields : ∀ spelling ∈ fields.map fun f => spellField s profile f.1 f.2,
        IsUnwrapped (.mapping name v (.record profile) height shape fields)
          (fun row : String × TypeExpr => row.2.constructors) spelling :=
      List.forall_mem_map.mpr fun f hf => isUnwrapped_spellField (h profile rfl)
        ((isUnwrapped_spellUse (isUnwrapped_spell s f.2)).of_child (List.mem_map_of_mem hf))
    -- Whether or not the record is functional, these are its constructors.
    have hrows : "NotRequired" ∉ "TypedDict" :: ((fields.map fun f =>
        spellField s profile f.1 f.2).map (·.written)).flatMap (·.2.constructors) := by
      rw [List.mem_cons, not_or, List.flatMap_map, List.mem_flatMap]
      exact ⟨by decide, fun ⟨spelling, hmem, hwritten⟩ =>
        (hfields spelling hmem).not_written hwritten⟩
    constructor
    · dsimp only [spellDeclaration]
      split <;> exact hrows
    · exact fun hmem => bringsWrapper_of_mem_flatMap hfields
        ((List.mem_cons.mp hmem).resolve_left (by decide))
  · rw [spellDeclaration_of_not_record (Bool.not_eq_true _ ▸ hrecord)]
    exact ⟨(isUnwrapped_spell s t).not_written, (isUnwrapped_spell s t).of_taken⟩

end Nodes

end TypeTree

namespace Session

open TypeTree

variable {s : Strategies} {demanded : Bool} {t u : TypeTree} {session : Session}

/-- The wrapper is in no declaration so far, and it has been taken only for a scalar type in the
    tree. -/
structure IsUnwrapped (t : TypeTree) (session : Session) : Prop where
  not_written : ∀ d ∈ session.blocks, "NotRequired" ∉ d.constructors
  of_taken : "NotRequired" ∈ session.symbols → t.BringsWrapper

/-- One step: a node is declared. -/
theorem isUnwrapped_declareNode (hu : u ∈ t.nodes) (hall : u.RequiresAll)
    (h : IsUnwrapped t session) : IsUnwrapped t (declareNode s demanded u session).2 := by
  have hspelled := isUnwrapped_spellDeclaration s hall
  unfold declareNode
  split
  · exact h
  · split
    · split <;> exact h
    -- The block and the symbols of the new declaration come to those that were there.
    · refine ⟨fun d hd => ?_, fun hmem => ?_⟩
      · rcases List.mem_append.mp hd with hd | hd
        · exact h.not_written d hd
        · rw [List.mem_singleton.mp hd]
          exact hspelled.not_written
      · rcases NameSet.mem_insertAll.mp hmem with hmem | hmem
        · exact (hspelled.of_taken hmem).of_mem_nodes hu
        · exact h.of_taken hmem

/-- Declaring a tree in which no field may be missing does not write the wrapper. -/
theorem isUnwrapped_declare (hall : ∀ u ∈ t.nodes, u.RequiresAll) (h : IsUnwrapped t session) :
    IsUnwrapped t (declare s demanded t session).2 :=
  declare_induct (P := IsUnwrapped t) (fun u hu _ _ h => isUnwrapped_declareNode hu (hall u hu) h) h

end Session

namespace Inference

open TypeTree

/-- Trees and modules if all fields have to be shared. No elements are merged: those of a sequence
    are the trees of its items without repetitions. So no field of a record may be missing, and
    `NotRequired` is neither written nor taken, unless a type has been registered with that
    symbol. By the standard registrations no name of it is imported. -/
theorem unmerged_of_similarity {run : Inference} {name : String} {v : Value} {t : TypeTree}
    (hfull : run.strategies.similarity = 100) (h : run.infer name v = .ok t) :
    (∀ parent items trees,
      List.Forall₂ (fun item t => run.child parent (.element item) item = .ok t) items trees →
      mergeSimilar run.strategies.similarity (dropRepeated trees) = dropRepeated trees) ∧
    (∀ u ∈ t.nodes, u.RequiresAll ∧ run.KeepsElements u) ∧
    ∀ session, t.render run.strategies = .ok session →
      (∀ d ∈ session.blocks, "NotRequired" ∉ d.constructors) ∧
      ("NotRequired" ∈ session.symbols → t.BringsWrapper) ∧
      (run.registry = .standard →
        ∀ symbol ∈ session.symbols, (Imports.resolve symbol).2 ≠ "NotRequired") := by
  have hnode := (infer_eq_ok_iff.mp h).2
  refine ⟨fun parent items trees => mergeSimilar_of_children hfull,
    fun u hu => ⟨requiresAll_of_node hfull hnode u hu, keepsElements_of_node hfull hnode u hu⟩,
    fun session hrender => ?_⟩
  -- The walk starts with an empty session, and each declaration keeps it free of the wrapper.
  have hunwrapped : Session.IsUnwrapped t session := by
    have hempty : Session.IsUnwrapped t {} :=
      ⟨fun d hd => absurd hd List.not_mem_nil, fun hmem => absurd hmem (NameSet.not_mem_empty _)⟩
    have hdeclared : Session.IsUnwrapped t (Session.declare run.strategies true t {}).2 :=
      Session.isUnwrapped_declare (requiresAll_of_node hfull hnode) hempty
    rw [render] at hrender
    rcases hresult : Session.declare run.strategies true t {} with ⟨_ | _, result⟩ <;>
      rw [hresult] at hrender hdeclared
    · contradiction
    · rw [← Except.ok.inj hrender]
      exact hdeclared
  refine ⟨hunwrapped.not_written, hunwrapped.of_taken, fun hstandard symbol hsymbol => ?_⟩
  rcases run with ⟨strategies, registry⟩
  cases hstandard
  have hconstructor := mem_symbols_of_render h hrender hsymbol
  have hne : symbol ≠ "NotRequired" := by
    rintro rfl
    rcases hunwrapped.of_taken hsymbol with ⟨n, w, type, hscalar, hsome⟩
    rw [symbol_eq_none_of_standard (hasRegistered_of_infer h n w type hscalar)] at hsome
    contradiction
  -- None of the other symbols is an alias of it.
  have hresolve : ∀ symbol ∈ constructorSymbols, symbol ≠ "NotRequired" →
      (Imports.resolve symbol).2 ≠ "NotRequired" := by decide +kernel
  exact hresolve symbol hconstructor hne

/-- Two rows with a field and two without it, of which two are left. -/
theorem unmerged_of_similarity_rows :
    let strategies : Strategies := { similarity := 100 }
    let rows := Value.sequence .list [.mapping [(.str "a", .int 1)], .mapping [],
      .mapping [(.str "a", .int 3)], .mapping []]
    ∃ t session, infer { strategies := strategies } "Rows" rows = .ok t ∧
      t.render strategies = .ok session ∧
      t.children.length = 2 ∧ session.blocks.length = 3 ∧
      (∀ u ∈ t.nodes, u.RequiresAll) ∧ (∀ d ∈ session.blocks, "NotRequired" ∉ d.constructors) ∧
      ∀ symbol ∈ session.symbols, (Imports.resolve symbol).2 ≠ "NotRequired" := by
  intro strategies rows
  have hrun : ((infer { strategies := strategies } "Rows" rows).bind fun t =>
      (t.render strategies).map fun session => (t.children.length, session.blocks.length)) =
        .ok (2, 3) := by
    decide +kernel
  rcases bind_eq_ok_iff.mp hrun with ⟨t, ht, hrender⟩
  rcases map_eq_ok_iff.mp hrender with ⟨session, hsession, hlengths⟩
  rw [Prod.mk.injEq] at hlengths
  have hunmerged := @unmerged_of_similarity { strategies := strategies } "Rows" rows t rfl ht
  exact ⟨t, session, ht, hsession, hlengths.1, hlengths.2, fun u hu => (hunmerged.2.1 u hu).1,
    (hunmerged.2.2 session hsession).1, (hunmerged.2.2 session hsession).2.2 rfl⟩

end Inference

end TypeSketch
