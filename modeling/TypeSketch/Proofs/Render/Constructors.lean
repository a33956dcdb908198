import TypeSketch.Proofs.Render.Determined
import TypeSketch.Proofs.Render.Symbols

/-!
# Symbols Are Exact

A session takes exactly the symbols that its declarations are written with. Symbols are
taken while types are spelled, and some of what has been spelled is not written: of the
types in a union those that repeat another one or are absorbed by it. That loses no symbol.
A type that repeats another one has its text, so it is the same type with the same
constructors, and the type that is absorbed is `int`, which has none.

Which constructors are written is read off the declarations alone: a constructor is what is
applied to arguments, or `Any`, or the base of a record. A name that stands for a
declaration is none of them, also if it is spelled like one. The invariant of a session is
`Session.IsExact`: one step declares one node, and it keeps the invariant because the
declaration of that node is exact.

## Main definitions

* `TypeExpr.constructors`, `Declaration.constructors`: The constructors that are written.
* `Spelling.IsExact`: The symbols taken are those that are written.
* `Session.IsExact`: The same for all declarations of a session.

## Theorems

* `Spelling.mem_constructors_union`: A union has the constructors of its types and its own.
* `TypeTree.IsSpellable.isExact_spellUse`, `TypeTree.IsSpellable.isExact_spellDeclaration`: What
  is spelled of a node.
* `Session.isExact_declare`: Declaring a tree keeps a session exact.
* `Inference.symbols_exact`: The symbols of a rendered tree.
-/

namespace TypeSketch

namespace TypeExpr

mutual

/-- The constructors that a type is written with. `Any` is one without arguments. -/
def constructors : TypeExpr → List String
  | name s => if s = "Any" then ["Any"] else []
  | apply constructor arguments => constructor :: argumentConstructors arguments

def argumentConstructors : List TypeExpr → List String
  | [] => []
  | e :: rest => constructors e ++ argumentConstructors rest

end

theorem argumentConstructors_eq_flatMap (arguments : List TypeExpr) :
    argumentConstructors arguments = arguments.flatMap constructors := by
  induction arguments with
  | nil => rfl
  | cons e rest ih => rw [argumentConstructors, ih, List.flatMap_cons]

theorem constructors_apply (constructor : String) (arguments : List TypeExpr) :
    (apply constructor arguments).constructors = constructor :: arguments.flatMap constructors := by
  rw [constructors, argumentConstructors_eq_flatMap]

theorem constructors_name {s : String} (h : s ≠ "Any") : (name s).constructors = [] := by
  rw [constructors, if_neg h]

end TypeExpr

/-- The constructors that a declaration is written with. The base of a record is one. -/
def Declaration.constructors : Declaration → List String
  | aliasOf _ type => type.constructors
  | record _ _ fields => "TypedDict" :: fields.flatMap (·.2.constructors)
  | functionalRecord _ fields => "TypedDict" :: fields.flatMap (·.2.constructors)

namespace Spelling

open TypeExpr

/-- The symbols taken are the constructors that are written. -/
def IsExact {α : Type} (constructors : α → List String) (spelling : Spelling α) : Prop :=
  ∀ symbol, symbol ∈ spelling.symbols ↔ symbol ∈ constructors spelling.written

variable {symbol : String} {types : List TypeExpr}

theorem IsExact.wrap {argument : Spelling TypeExpr} (h : argument.IsExact TypeExpr.constructors)
    (constructor : String) : (argument.wrap constructor).IsExact TypeExpr.constructors := by
  intro symbol
  rw [Spelling.wrap, constructors_apply, List.flatMap_singleton, List.mem_cons, List.mem_cons, h symbol]

/-- What several exact spellings take is what they are written with. -/
theorem mem_flatMap_of_isExact {α : Type} {constructors : α → List String}
    {spellings : List (Spelling α)} (h : ∀ spelling ∈ spellings, spelling.IsExact constructors) :
    symbol ∈ spellings.flatMap (·.symbols) ↔
      symbol ∈ (spellings.map (·.written)).flatMap constructors := by
  rw [List.flatMap_map, List.mem_flatMap, List.mem_flatMap]
  exact exists_congr fun spelling => and_congr_right fun hmem => h spelling hmem symbol

section Unions

/-- The types that are no members have no constructors of their own. -/
theorem mem_constructors_members (h : ∀ e ∈ types, e.IsPlain) :
    symbol ∈ (members types).flatMap constructors ↔ symbol ∈ types.flatMap constructors := by
  -- Members are dropped because of their texts, and a plain type can be read off its text.
  simp only [List.mem_flatMap]
  constructor
  · rintro ⟨e, he, hsymbol⟩
    exact ⟨e, (mem_of_mem_members he).1, hsymbol⟩
  · rintro ⟨e, he, hsymbol⟩
    by_cases hint : e.text = "int"
    · -- An integer is a name, so it has no constructors, whether it is absorbed or not.
      have hplain : (TypeExpr.name "int").IsPlain :=
        TypeExpr.IsPlain.name (TypeTree.isPlain_of_mem_words (by decide))
      have heq : e = .name "int" := text_injective (h e he) hplain (by rw [hint, TypeExpr.text])
      rw [heq, constructors_name (by decide)] at hsymbol
      exact absurd hsymbol List.not_mem_nil
    · rcases exists_mem_members he (fun _ => hint) with ⟨e', he', htext⟩
      have heq : e' = e := text_injective (h e' (mem_of_mem_members he').1) (h e he) htext
      exact ⟨e', he', by rw [heq]; exact hsymbol⟩

/-- A union is written with the constructors of its types and the symbols that it takes
    itself. -/
theorem mem_constructors_union (h : ∀ e ∈ types, e.IsPlain) :
    symbol ∈ (union types).written.constructors ↔
      symbol ∈ types.flatMap constructors ∨ symbol ∈ (union types).symbols := by
  rw [← mem_constructors_members h, union_eq]
  -- The cases are a union written `Any`, one written as its only member, and one of several.
  match members types with
  | [] => rw [constructors, if_pos rfl, List.flatMap_nil, or_iff_right List.not_mem_nil]
  | [single] => rw [List.flatMap_singleton, or_iff_left List.not_mem_nil]
  | first :: second :: rest => rw [constructors_apply, List.mem_cons, List.mem_singleton, or_comm]

/-- The same for a list of types, which keeps all of them. -/
theorem mem_constructors_listed (types : List TypeExpr) :
    symbol ∈ (listed types).written.flatMap constructors ↔
      symbol ∈ types.flatMap constructors ∨ symbol ∈ (listed types).symbols := by
  cases types with
  | nil => rw [List.flatMap_nil, or_iff_right List.not_mem_nil]; rfl
  | cons first rest => exact (or_iff_left List.not_mem_nil).symm

end Unions

end Spelling

namespace TypeTree

open Naming Spelling TypeExpr

variable {s : Strategies} {t c : TypeTree} {symbol : String}

/-- No scalar type in the tree brings a symbol of its own. -/
def IsSymbolFree (t : TypeTree) : Prop :=
  ∀ name v type, scalar name v type ∈ t.nodes → type.symbol = none

theorem IsSymbolFree.of_mem_nodes {u : TypeTree} (h : t.IsSymbolFree) (hu : u ∈ t.nodes) :
    u.IsSymbolFree :=
  fun name v type hmem => h name v type (mem_nodes_trans hu hmem)

theorem IsSymbolFree.child (h : t.IsSymbolFree) (hc : c ∈ t.children) : c.IsSymbolFree :=
  h.of_mem_nodes (mem_nodes_of_child hc (mem_nodes_self c))

section Containers

theorem spellSequence_symbols_of_ne_fixed {kind : ElementKind} (h : kind ≠ .tuple .fixed)
    (elements : List (Spelling TypeExpr)) :
    (spellSequence s kind elements).symbols = sequenceConstructor s kind ::
      (elements.flatMap (·.symbols) ++ (Spelling.union (elements.map (·.written))).symbols) := by
  cases kind with
  | list => rfl
  | set frozen => cases frozen <;> rfl
  | iterator => rfl
  | tuple size =>
    cases size with
    | fixed => contradiction
    | anySize => rfl

theorem constructors_dots : (TypeExpr.name "...").constructors = [] :=
  constructors_name (by decide)

theorem constructors_sequenceDots (kind : ElementKind) :
    (sequenceDots kind).flatMap TypeExpr.constructors = [] := by
  unfold sequenceDots
  split
  · rw [List.flatMap_singleton, constructors_dots]
  · rfl

theorem isExact_spellSequence {kind : ElementKind} {elements : List (Spelling TypeExpr)}
    (hexact : ∀ e ∈ elements, e.IsExact TypeExpr.constructors)
    (hplain : ∀ e ∈ elements.map (·.written), e.IsPlain) :
    (spellSequence s kind elements).IsExact TypeExpr.constructors := by
  intro symbol
  by_cases hfixed : kind = .tuple .fixed
  · -- A tuple of fixed size lists its types, so nothing is dropped.
    subst hfixed
    have hdots : (if (elements.map (·.written)).isEmpty then [TypeExpr.name "..."] else []).flatMap
        TypeExpr.constructors = [] := by
      split
      · rw [List.flatMap_singleton, constructors_dots]
      · rfl
    rw [spellSequence_fixed, constructors_apply, List.flatMap_append, hdots, List.append_nil,
      List.mem_cons, mem_constructors_listed, ← mem_flatMap_of_isExact hexact, ← List.mem_append,
      ← List.mem_cons]
    rfl
  -- Elsewhere the elements make a union, and a symbol is needed for what stands in it.
  · rw [spellSequence_of_ne_fixed hfixed, spellSequence_symbols_of_ne_fixed hfixed,
      constructors_apply, List.flatMap_cons, constructors_sequenceDots, List.append_nil, List.mem_cons,
      List.mem_cons, List.mem_append, mem_constructors_union hplain, mem_flatMap_of_isExact hexact]

/-- The types of keys are names, and none of them is written `Any`. -/
theorem flatMap_constructors_keys {keyTypes : List String} (h : ∀ k ∈ keyTypes, k ∈ keyTypeNames) :
    (keyTypes.map TypeExpr.name).flatMap TypeExpr.constructors = [] := by
  have hany : "Any" ∉ keyTypeNames := by decide
  refine List.flatMap_eq_nil_iff.mpr (List.forall_mem_map.mpr fun k hk => ?_)
  exact constructors_name fun heq => hany (heq ▸ h k hk)

theorem isExact_spellGeneric {keyTypes : List String} {values : List (Spelling TypeExpr)}
    (hkeys : ∀ k ∈ keyTypes, k ∈ keyTypeNames)
    (hexact : ∀ e ∈ values, e.IsExact TypeExpr.constructors)
    (hplain : ∀ e ∈ values.map (·.written), e.IsPlain) :
    (spellGeneric s keyTypes values).IsExact TypeExpr.constructors := by
  intro symbol
  have hplainKeys : ∀ e ∈ keyTypes.map TypeExpr.name, e.IsPlain := List.forall_mem_map.mpr fun k hk =>
    TypeExpr.IsPlain.name (isPlain_of_mem_words (List.mem_append_left _ (hkeys k hk)))
  have hkey : symbol ∈ (Spelling.union (keyTypes.map TypeExpr.name)).written.constructors ↔
      symbol ∈ (Spelling.union (keyTypes.map TypeExpr.name)).symbols := by
    rw [mem_constructors_union hplainKeys, flatMap_constructors_keys hkeys,
      or_iff_right List.not_mem_nil]
  dsimp only [spellGeneric]
  rw [constructors_apply, List.flatMap_cons, List.flatMap_singleton]
  simp only [List.cons_append, List.mem_cons, List.mem_append, hkey, mem_constructors_union hplain,
    mem_flatMap_of_isExact hexact, or_assoc]

end Containers

section Nodes

/-- A node below a root is used with exact symbols, if it is written out with them. -/
theorem isExact_spellUse_of_spell (hname : t.name ≠ "Any")
    (h : t.isRecord = false → (t.spell s).IsExact TypeExpr.constructors) :
    (t.spellUse s).IsExact TypeExpr.constructors := by
  by_cases haliased : t.isAliased s = true
  · -- The name of a declaration takes nothing and is no constructor.
    intro symbol
    rw [spellUse, if_pos haliased, constructors_name hname]
  · rw [spellUse, if_neg haliased]
    refine h ?_
    by_contra hrecord
    exact haliased (isAliased_of_isRecord (Bool.not_eq_false _ ▸ hrecord))

theorem IsSpellable.name_ne_any (h : IsSpellable s t) (hc : c ∈ t.children) : c.name ≠ "Any" := by
  intro heq
  refine (h.forall_children c hc).2 ?_
  rw [heq]
  decide

/-- A node that is no record is written out with exact symbols, if its children are used
    with exact ones. -/
theorem IsSpellable.isExact_spell_of_children (h : IsSpellable s t) (hfree : t.IsSymbolFree)
    (hrecord : t.isRecord = false)
    (hchildren : ∀ c ∈ t.children, (c.spellUse s).IsExact TypeExpr.constructors) :
    (t.spell s).IsExact TypeExpr.constructors := by
  have hexact : ∀ e ∈ t.children.map (spellUse s), e.IsExact TypeExpr.constructors :=
    List.forall_mem_map.mpr hchildren
  have hplain : ∀ e ∈ (t.children.map (spellUse s)).map (·.written), e.IsPlain := by
    rw [List.map_map]
    exact List.forall_mem_map.mpr fun c hc => (h.child hc).isPlain_spellUse
  -- A scalar needs no symbol of its own, and a container adds its constructor to what its parts
  -- need.
  rcases h.builtin with ⟨known⟩ | ⟨_, keys_known⟩ | _
  · next name v type =>
    intro symbol
    have hany : "Any" ∉ scalarNames := by decide
    rw [spell, hfree name v type (mem_nodes_self _), constructors_name fun heq => hany (heq ▸ known)]
    rfl
  · next form _ _ _ _ =>
    cases form with
    | record profile => contradiction
    | generic =>
      rw [spell, spellFieldUses_eq_map]
      exact isExact_spellGeneric (List.forall_mem_map.mpr (keys_known rfl)) hexact hplain
  · rw [spell, spellElementUses_eq_map]
    exact isExact_spellSequence hexact hplain

/-- What stands where a node below a root is used takes exact symbols. -/
theorem IsSpellable.isExact_spellUse (h : IsSpellable s t) (hfree : t.IsSymbolFree)
    (hname : t.name ≠ "Any") : (t.spellUse s).IsExact TypeExpr.constructors := by
  induction t using induct_children with
  | node t ih =>
    refine isExact_spellUse_of_spell hname fun hrecord => ?_
    refine h.isExact_spell_of_children hfree hrecord fun c hc => ?_
    exact ih c hc (h.child hc) (hfree.child hc) (h.name_ne_any hc)

theorem isExact_spellField {profile : RecordProfile} {key : Value}
    (h : (c.spellUse s).IsExact TypeExpr.constructors) :
    (spellField s profile key c).IsExact (·.2.constructors) := by
  dsimp only [spellField]
  split <;> split
  · exact (h.wrap "ReadOnly").wrap "NotRequired"
  · exact h.wrap "NotRequired"
  · exact h.wrap "ReadOnly"
  · exact h

/-- The declaration of a node takes exact symbols, also if the node is a root. -/
theorem IsSpellable.isExact_spellDeclaration (h : IsSpellable s t) (hfree : t.IsSymbolFree) :
    (t.spellDeclaration s).IsExact Declaration.constructors := by
  have hchildren : ∀ c ∈ t.children, (c.spellUse s).IsExact TypeExpr.constructors :=
    fun c hc => (h.child hc).isExact_spellUse (hfree.child hc) (h.name_ne_any hc)
  by_cases hrecord : t.isRecord = true
  · rcases exists_eq_of_isRecord hrecord with ⟨name, v, profile, height, shape, fields, rfl⟩
    intro symbol
    have hfields : ∀ spelling ∈ fields.map fun f => spellField s profile f.1 f.2,
        spelling.IsExact (·.2.constructors) :=
      List.forall_mem_map.mpr fun f hf => isExact_spellField (hchildren f.2 (List.mem_map_of_mem hf))
    dsimp only [spellDeclaration]
    split <;> simp only [Declaration.constructors, List.mem_cons, mem_flatMap_of_isExact hfields]
  · rw [Bool.not_eq_true] at hrecord
    rw [spellDeclaration_of_not_record hrecord]
    exact h.isExact_spell_of_children hfree hrecord hchildren

end Nodes

end TypeTree

namespace Session

open TypeTree

variable {s : Strategies} {demanded : Bool} {t : TypeTree} {session : Session}

/-- The symbols taken so far are the constructors that the declarations are written with. -/
def IsExact (session : Session) : Prop :=
  ∀ symbol, symbol ∈ session.symbols ↔ ∃ d ∈ session.blocks, symbol ∈ d.constructors

theorem isExact_empty : IsExact {} := by
  intro symbol
  refine iff_of_false (NameSet.not_mem_empty symbol) ?_
  rintro ⟨d, hd, _⟩
  exact absurd hd List.not_mem_nil

/-- One step: a node takes its symbols only together with its declaration. -/
theorem isExact_declareNode (h : session.IsExact)
    (hspelling : (t.spellDeclaration s).IsExact Declaration.constructors) :
    (declareNode s demanded t session).2.IsExact := by
  unfold declareNode
  split
  · exact h
  · split
    · split <;> exact h
    · intro symbol
      dsimp only [take]
      simp only [NameSet.mem_insertAll, hspelling symbol, h symbol, List.mem_append,
        List.mem_singleton, or_and_right, exists_or, exists_eq_left, or_comm]

/-- Declaring a tree keeps a session exact, also if it ends with a conflict. -/
theorem isExact_declare
    (hspelling : ∀ u ∈ t.nodes, (u.spellDeclaration s).IsExact Declaration.constructors)
    (h : session.IsExact) : (declare s demanded t session).2.IsExact :=
  declare_induct (fun u hu _ _ h => isExact_declareNode h (hspelling u hu)) h

end Session

namespace Inference

open TypeTree

variable {s : Strategies} {name : String} {v : Value} {t : TypeTree}

/-- By the standard registrations no scalar type brings a symbol. -/
theorem isSymbolFree_of_infer (h : infer { strategies := s } name v = .ok t) : t.IsSymbolFree :=
  fun _ _ _ hmem => symbol_eq_none_of_standard (hasRegistered_of_infer h _ _ _ hmem)

/-- The symbols of a rendered tree are exactly the constructors that its declarations are
    written with, and these are among the known ones. `Any` is always the constructor: no
    declaration that could be referred to has that name. -/
theorem symbols_exact {session : Session} (hfree : v.IsOpaqueFree)
    (h : infer { strategies := s } name v = .ok t) (hrender : t.render s = .ok session) :
    (∀ symbol, symbol ∈ session.symbols ↔ ∃ d ∈ session.blocks, symbol ∈ d.constructors) ∧
      (∀ d ∈ session.blocks, ∀ symbol ∈ d.constructors, symbol ∈ constructorSymbols) ∧
      ∀ u ∈ t.descendants, u.name ≠ "Any" := by
  have hspell := isSpellable_of_infer hfree h
  have hsymbols := isSymbolFree_of_infer h
  have hexact : session.IsExact := by
    have hdeclared : (Session.declare s true t {}).2.IsExact := Session.isExact_declare
      (fun u hu => (hspell.of_mem_nodes hu).isExact_spellDeclaration (hsymbols.of_mem_nodes hu))
      Session.isExact_empty
    rw [render] at hrender
    rcases hresult : Session.declare s true t {} with ⟨_ | _, result⟩ <;> rw [hresult] at hrender hdeclared
    · contradiction
    · rw [← Except.ok.inj hrender]
      exact hdeclared
  -- What a declaration needs is in the session, and what is there has been asked for by rendering.
  refine ⟨hexact, fun d hd symbol hsymbol => ?_, fun u hu => ?_⟩
  · exact mem_symbols_of_render h hrender ((hexact symbol).mpr ⟨d, hd, hsymbol⟩)
  · -- A node below the root is a child of some node that can be spelled.
    have hwell := hspell.wellNamed.extends_of_mem_descendants hu
    intro heq
    refine hwell.not_mem_words hspell.name_ne ?_
    rw [heq]
    decide

/-- A mapping with two keys of one type takes no `Union`, and a list without elements takes
    `Any`. -/
theorem symbols_exact_readings :
    ∃ t session, infer {} "Readings" (.mapping
        [(.str "all", .mapping [(.int 1, .str "a"), (.int 2, .str "b")]),
          (.str "rows", .sequence .tuple [.sequence .list [], .str "end"])]) = .ok t ∧
      t.render {} = .ok session ∧
      session.symbols.names = ["Any", "Dict", "List", "Tuple", "TypedDict"] ∧
      session.blocks.map (·.text) = [
        "ReadingsAll = Dict[int, str]", "ReadingsRowsList = List[Any]",
        "ReadingsRows = Tuple[ReadingsRowsList, str]",
        "class Readings(TypedDict):\n    all: ReadingsAll\n    rows: ReadingsRows"] ∧
      ∀ symbol, symbol ∈ session.symbols ↔ ∃ d ∈ session.blocks, symbol ∈ d.constructors := by
  have hexact := @symbols_exact {} "Readings" (.mapping
    [(.str "all", .mapping [(.int 1, .str "a"), (.int 2, .str "b")]),
      (.str "rows", .sequence .tuple [.sequence .list [], .str "end"])]) _ _ (by decide) rfl rfl
  exact ⟨_, _, rfl, rfl, by decide +kernel, by decide +kernel, hexact.1⟩

end Inference

end TypeSketch
