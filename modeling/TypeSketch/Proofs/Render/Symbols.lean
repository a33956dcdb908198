import TypeSketch.Proofs.Render.Sessions
import TypeSketch.Proofs.Tree.Registered

/-!
# Symbols of Declarations

Which symbols a session takes. A type is written with constructors of a fixed list and
with scalar types, and these bring the symbols that they are registered with. So the
symbols of a session are constructors and symbols of scalar types in its trees, and with
the built-in types alone they are constructors.

## Main definitions

* `TypeTree.constructorSymbols`: The constructors that types are written with.
* `TypeTree.TakesOnly`: What the symbols of a tree are among.

## Theorems

* `TypeTree.mem_symbols_spell`, `TypeTree.mem_symbols_spellDeclaration`: The symbols of a node.
* `Session.mem_symbols_declare`: The symbols of a session after a tree has been declared.
* `Inference.mem_symbols_of_render`: Built-in types take constructors only.
-/

namespace TypeSketch

namespace TypeTree

/-- The constructors that types and declarations are written with. -/
def constructorSymbols : List String :=
  ["Any", "Dict", "FrozenSet", "Iterator", "List", "Mapping", "NotRequired", "ReadOnly", "Sequence",
   "Set", "Tuple", "TypedDict", "Union"]

/-- The symbols are constructors and symbols of scalar types in the tree. -/
def TakesOnly (t : TypeTree) (symbols : List String) : Prop :=
  ∀ symbol ∈ symbols, symbol ∈ constructorSymbols ∨
    ∃ name v type, scalar name v type ∈ t.nodes ∧ type.symbol = some symbol

variable {s : Strategies} {t c : TypeTree}

section TakesOnly

variable {symbols more : List String}

theorem TakesOnly.append (h : t.TakesOnly symbols) (h' : t.TakesOnly more) :
    t.TakesOnly (symbols ++ more) := by
  intro symbol hmem
  rcases List.mem_append.mp hmem with hmem | hmem
  · exact h symbol hmem
  · exact h' symbol hmem

theorem TakesOnly.cons {constructor : String} (hconstructor : constructor ∈ constructorSymbols)
    (h : t.TakesOnly symbols) : t.TakesOnly (constructor :: symbols) := by
  intro symbol hmem
  rcases List.mem_cons.mp hmem with rfl | hmem
  · exact Or.inl hconstructor
  · exact h symbol hmem

theorem takesOnly_of_subset (h : ∀ symbol ∈ symbols, symbol ∈ constructorSymbols) :
    t.TakesOnly symbols :=
  fun symbol hmem => Or.inl (h symbol hmem)

theorem TakesOnly.of_child (hc : c ∈ t.children) (h : c.TakesOnly symbols) : t.TakesOnly symbols := by
  intro symbol hmem
  refine (h symbol hmem).imp_right ?_
  rintro ⟨name, v, type, hnode, hsymbol⟩
  exact ⟨name, v, type, mem_nodes_of_child hc hnode, hsymbol⟩

theorem takesOnly_flatMap {α : Type} {spellings : List (Spelling α)}
    (h : ∀ spelling ∈ spellings, t.TakesOnly spelling.symbols) :
    t.TakesOnly (spellings.flatMap (·.symbols)) := by
  intro symbol hmem
  rcases List.mem_flatMap.mp hmem with ⟨spelling, hspelling, hsymbol⟩
  exact h spelling hspelling symbol hsymbol

theorem takesOnly_listed (types : List TypeExpr) : t.TakesOnly (Spelling.listed types).symbols := by
  unfold Spelling.listed
  split
  · exact takesOnly_of_subset (by decide)
  · exact takesOnly_of_subset fun _ h => absurd h List.not_mem_nil

theorem takesOnly_union (types : List TypeExpr) : t.TakesOnly (Spelling.union types).symbols := by
  have hlisted : t.TakesOnly (Spelling.distinctTypes types).symbols := takesOnly_listed _
  dsimp only [Spelling.union]
  split
  · exact hlisted
  · exact hlisted.append (takesOnly_of_subset (by decide))

theorem takesOnly_spellSequence {kind : ElementKind} {elements : List (Spelling TypeExpr)}
    (h : t.TakesOnly (elements.flatMap (·.symbols))) :
    t.TakesOnly (spellSequence s kind elements).symbols := by
  have hunion := takesOnly_union (t := t) (elements.map (·.written))
  have hlist : listConstructor s.listStyle ∈ constructorSymbols := by
    cases s.listStyle <;> decide
  cases kind with
  | list => exact (h.append hunion).cons hlist
  | set frozen => cases frozen <;> exact (h.append hunion).cons (by decide)
  | iterator => exact (h.append hunion).cons (by decide)
  | tuple size =>
    cases size with
    | fixed => exact (h.cons (by decide)).append (takesOnly_listed _)
    | anySize => exact (h.cons (by decide)).append hunion

theorem takesOnly_spellGeneric {keyTypes : List String} {values : List (Spelling TypeExpr)}
    (h : t.TakesOnly (values.flatMap (·.symbols))) :
    t.TakesOnly (spellGeneric s keyTypes values).symbols := by
  have hmapping : mappingConstructor s.dictStyle ∈ constructorSymbols := by
    cases s.dictStyle <;> decide
  exact (((takesOnly_union _).cons hmapping).append h).append (takesOnly_union _)

end TakesOnly

theorem takesOnly_spellUse (h : t.TakesOnly (t.spell s).symbols) :
    t.TakesOnly (t.spellUse s).symbols := by
  unfold spellUse
  split
  · exact takesOnly_of_subset fun _ h => absurd h List.not_mem_nil
  · exact h

/-- The symbols of a type that is written out. -/
theorem mem_symbols_spell (s : Strategies) (t : TypeTree) : t.TakesOnly (t.spell s).symbols := by
  induction t using induct_children with
  | node t ih =>
    -- What the children take is taken below this node too.
    have huses : t.TakesOnly ((t.children.map (spellUse s)).flatMap (·.symbols)) := by
      refine takesOnly_flatMap (List.forall_mem_map.mpr fun c hc => ?_)
      exact (takesOnly_spellUse (ih c hc)).of_child hc
    cases t with
    | scalar name v type =>
      intro symbol hmem
      exact Or.inr ⟨name, v, type, mem_nodes_self _, by simpa [spell] using hmem⟩
    | mapping name v form height shape fields =>
      cases form with
      | record profile => exact takesOnly_of_subset fun _ h => absurd h List.not_mem_nil
      | generic =>
        refine takesOnly_spellGeneric ?_
        rw [spellFieldUses_eq_map]
        exact huses
    | sequence name v kind height shape elements =>
      refine takesOnly_spellSequence ?_
      rw [spellElementUses_eq_map]
      exact huses

theorem takesOnly_spellField {profile : RecordProfile} {key : Value}
    (h : t.TakesOnly (c.spellUse s).symbols) : t.TakesOnly (spellField s profile key c).symbols := by
  have hwrap : ∀ {constructor : String} {spelling : Spelling TypeExpr},
      constructor ∈ constructorSymbols → t.TakesOnly spelling.symbols →
        t.TakesOnly (spelling.wrap constructor).symbols :=
    fun hconstructor h => h.cons hconstructor
  dsimp only [spellField]
  split <;> split
  · exact hwrap (by decide) (hwrap (by decide) h)
  · exact hwrap (by decide) h
  · exact hwrap (by decide) h
  · exact h

/-- The symbols of a declaration. -/
theorem mem_symbols_spellDeclaration (s : Strategies) (t : TypeTree) :
    t.TakesOnly (t.spellDeclaration s).symbols := by
  cases t with
  | scalar name v type => exact mem_symbols_spell s _
  | sequence name v kind height shape elements => exact mem_symbols_spell s _
  | mapping name v form height shape fields =>
    cases form with
    | generic => exact mem_symbols_spell s _
    | record profile =>
      refine TakesOnly.cons (by decide) (takesOnly_flatMap (List.forall_mem_map.mpr fun f hf => ?_))
      exact takesOnly_spellField ((takesOnly_spellUse (mem_symbols_spell s f.2)).of_child
        (List.mem_map_of_mem hf))

end TypeTree

namespace Session

open TypeTree

variable {s : Strategies} {demanded : Bool} {t : TypeTree} {session : Session} {symbol : String}

theorem mem_symbols_declareNode (h : symbol ∈ (declareNode s demanded t session).2.symbols) :
    symbol ∈ session.symbols ∨ symbol ∈ (t.spellDeclaration s).symbols := by
  unfold declareNode at h
  split at h
  · exact Or.inl h
  · split at h
    · split at h <;> exact Or.inl h
    · exact (NameSet.mem_insertAll.mp h).symm

/-- A symbol that a session has after a tree has been declared is an old one, or the
    declaration of a node takes it. -/
theorem mem_symbols_declare (h : symbol ∈ (declare s demanded t session).2.symbols) :
    symbol ∈ session.symbols ∨ ∃ u ∈ t.nodes, symbol ∈ (u.spellDeclaration s).symbols := by
  refine declare_induct (P := fun later => symbol ∈ later.symbols → symbol ∈ session.symbols ∨
    ∃ u ∈ t.nodes, symbol ∈ (u.spellDeclaration s).symbols) ?_ Or.inl h
  intro u hu _ _ ih hmem
  rcases mem_symbols_declareNode hmem with hmem | hmem
  · exact ih hmem
  · exact Or.inr ⟨u, hu, hmem⟩

end Session

namespace Inference

open TypeTree

theorem symbol_eq_none_of_standard {kind : ValueKind} {type : ScalarType}
    (h : Registry.standard.get? kind = some (.scalar type)) : type.symbol = none := by
  rcases Registry.scalar_of_standard h with ⟨_, _, _, rfl⟩
  rfl

/-- With the built-in types a session takes no symbols but constructors. -/
theorem mem_symbols_of_render {s : Strategies} {name : String} {v : Value} {t : TypeTree}
    {session : Session} (h : infer { strategies := s } name v = .ok t)
    (hrender : t.render s = .ok session) {symbol : String} (hsymbol : symbol ∈ session.symbols) :
    symbol ∈ constructorSymbols := by
  have hdeclared : symbol ∈ (Session.declare s true t {}).2.symbols := by
    rw [render] at hrender
    rcases hresult : Session.declare s true t {} with ⟨_ | _, result⟩ <;> rw [hresult] at hrender
    · contradiction
    · rw [Except.ok.inj hrender]
      exact hsymbol
  rcases Session.mem_symbols_declare hdeclared with hempty | ⟨u, hu, hmem⟩
  · exact absurd hempty (NameSet.not_mem_empty symbol)
  · refine (mem_symbols_spellDeclaration s u symbol hmem).resolve_right ?_
    rintro ⟨n, w, type, hnode, hsome⟩
    have hregistered := hasRegistered_of_infer h n w type (mem_nodes_trans hu hnode)
    rw [symbol_eq_none_of_standard hregistered] at hsome
    contradiction

end Inference

end TypeSketch
