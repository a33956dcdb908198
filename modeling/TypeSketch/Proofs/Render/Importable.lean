import TypeSketch.Proofs.Acceptance.Basic
import TypeSketch.Proofs.Render.Mentioned

/-!
# Importable Names

Whether a module can be read by itself: every name in its declarations is built in, declared
in it, or imported. This is so where each type that is known by its name alone has been
registered under that name with a symbol to import it by.

It fails for the types of keys of generic mappings. A scalar type takes the symbol that it is
registered with, but the types of keys are written as they are called, whether they are
registered or not. So the keys of the example that are of no built-in type are what a module
can name without importing it.

## Main definitions

* `Registry.importing`: Types registered under their own names with symbols.
* `Session.Provides`: Names that can be used in a module.
* `Value.IsKeyIn`: The keys of an example.

## Theorems

* `Session.takes_declare`: A session takes all symbols of its declarations.
* `Inference.isKeyIn_of_mem_fields`: The keys of an inferred tree.
* `Inference.provides_of_mem_mentions`: Names in a module can be used, up to types of keys.
-/

namespace TypeSketch

open Naming

namespace Registry

/-- The registrations of the built-in types and of types that are written as they are called,
    each with the symbol to import it by. -/
def importing (types : List (String × String)) : Registry :=
  extended (types.map fun type => (type.1, ⟨type.1, some type.2⟩))

/-- A scalar type has a built-in name, or its own name and a symbol. -/
theorem get?_importing_cases {types : List (String × String)} {kind : ValueKind} {type : ScalarType}
    (h : (importing types).get? kind = some (.scalar type)) :
    type.rendered ∈ scalarNames ∨
      ∃ name symbol, kind = .atom (.named name) ∧ type = ⟨name, some symbol⟩ := by
  -- The fold begins with any registrations of such types.
  have hfold : ∀ r : Registry,
      (∀ type, r.get? kind = some (.scalar type) → type.rendered ∈ scalarNames ∨
        ∃ name symbol, kind = .atom (.named name) ∧ type = ⟨name, some symbol⟩) →
      ∀ type, ((types.map fun type => (type.1, (⟨type.1, some type.2⟩ : ScalarType))).foldl
          (fun r type => r.registerNamed type.1 type.2) r).get? kind = some (.scalar type) →
        type.rendered ∈ scalarNames ∨
          ∃ name symbol, kind = .atom (.named name) ∧ type = ⟨name, some symbol⟩ := by
    clear h
    induction types with
    | nil => exact fun r hr => hr
    | cons first rest ih =>
      refine fun r hr => ih _ fun type htype => ?_
      by_cases hkind : kind = .atom (.named first.1)
      · rw [hkind, get?_registerNamed_self, Option.some.injEq, Specialization.scalar.injEq] at htype
        exact Or.inr ⟨first.1, first.2, hkind, htype.symm⟩
      · rw [get?_registerNamed_of_ne hkind] at htype
        exact hr type htype
  exact hfold standard (fun type htype => Or.inl (Inference.rendered_mem_of_standard htype)) type h

end Registry

namespace Value

/-- A key of a mapping that nodes are made from. -/
def IsKeyIn (key v : Value) : Prop :=
  ∃ entries, (Value.mapping entries).IsPart v ∧ key ∈ entries.map (·.1)

end Value

/-- Names of types that are there without an import. -/
def Naming.builtinNames : List String := scalarNames ++ ["list", "tuple", "set", "frozenset", "dict"]

namespace Session

open TypeTree

/-- A name that can be used in the module of a session: it is built in, declared in the module,
    or imported as a constructor or as a registered type. -/
inductive Provides (session : Session) (r : Registry) (n : String) : Prop
  | builtin (known : n ∈ builtinNames)
  | declared {d : Declaration} (block : d ∈ session.blocks) (name_eq : d.name = n)
  | constructor (known : n ∈ constructorSymbols) (imported : n ∈ session.symbols)
  | registered {symbol : String} (registered : r.get? (.atom (.named n)) = some (.scalar ⟨n, some symbol⟩))
    (imported : symbol ∈ session.symbols)

variable {s : Strategies} {demanded : Bool} {t : TypeTree} {session : Session}

/-- The declarations of a session are those of nodes of a tree, and all their symbols have been
    taken. -/
def Takes (s : Strategies) (t : TypeTree) (session : Session) : Prop :=
  ∀ d ∈ session.blocks, ∃ u ∈ t.nodes, d = (u.spellDeclaration s).written ∧
    ∀ symbol ∈ (u.spellDeclaration s).symbols, symbol ∈ session.symbols

/-- One step: a node takes its symbols together with its declaration. -/
theorem takes_declareNode {u : TypeTree} (hu : u ∈ t.nodes) (h : session.Takes s t) :
    (declareNode s demanded u session).2.Takes s t := by
  unfold declareNode
  split
  · exact h
  · split
    · split <;> exact h
    · intro d hd
      rcases List.mem_append.mp hd with hd | hd
      · rcases h d hd with ⟨w, hw, heq, htaken⟩
        exact ⟨w, hw, heq, fun symbol hsymbol =>
          NameSet.mem_insertAll.mpr (Or.inr (htaken symbol hsymbol))⟩
      · exact ⟨u, hu, List.mem_singleton.mp hd, fun symbol hsymbol =>
          NameSet.mem_insertAll.mpr (Or.inl hsymbol)⟩

/-- A session takes all symbols of its declarations. -/
theorem takes_declare (h : session.Takes s t) : (declare s demanded t session).2.Takes s t :=
  declare_induct (fun _ hu _ _ h => takes_declareNode hu h) h

theorem takes_of_render (h : t.render s = .ok session) : session.Takes s t := by
  have hdeclared : (declare s true t {}).2.Takes s t :=
    takes_declare fun d hd => absurd hd List.not_mem_nil
  rw [render] at h
  rcases hresult : declare s true t {} with ⟨_ | _, result⟩ <;> rw [hresult] at h hdeclared
  · contradiction
  · rw [← Except.ok.inj h]
    exact hdeclared

/-- What is in the table of a session has a declaration of its name. -/
theorem IsClosedOver.exists_block {nodes : List (Strategies × TypeTree)}
    (h : session.IsClosedOver nodes) {entry : String × UInt64} (hentry : entry ∈ session.declared) :
    ∃ d ∈ session.blocks, d.name = entry.1 := by
  rcases h.mem_declared_iff.mp hentry with ⟨n, hn, hname, _⟩
  refine ⟨(n.2.spellDeclaration n.1).written, ?_, by rw [name_spellDeclaration, hname]⟩
  rw [h.blocks_eq]
  exact List.mem_map_of_mem hn

end Session

namespace Inference

open TypeTree

variable {s : Strategies} {types : List (String × String)} {name : String} {v : Value} {t : TypeTree}

theorem isNodewise_keys (P : Value → Prop) : IsNodewise fun u =>
    ∀ name w height shape fields, u = .mapping name w .generic height shape fields →
      ∀ f ∈ fields, P f.1 where
  rename t newName h name w height shape fields heq := by
    cases t with
    | scalar _ _ _ => contradiction
    | sequence _ _ _ _ _ _ => contradiction
    | mapping oldName w' form height' shape' before =>
      rw [TypeTree.rename, renameFields_eq_map] at heq
      cases heq
      exact List.forall_mem_map.mpr (h oldName w height shape before rfl)
  merge _ _ _ m hm _ _ name w height shape fields heq := by
    rw [heq] at hm
    cases hm

/-- The keys of a generic mapping in an inferred tree are keys of the example. -/
theorem isKeyIn_of_mem_fields {run : Inference} (h : run.infer name v = .ok t) {n : String} {w : Value}
    {height : Nat} {shape : Shape} {fields : List (Value × TypeTree)} {f : Value × TypeTree}
    (hmem : .mapping n w .generic height shape fields ∈ t.nodes) (hf : f ∈ fields) : f.1.IsKeyIn v := by
  refine forall_nodes_of_node (isNodewise_keys (·.IsKeyIn v)) ?_ (infer_eq_ok_iff.mp h).2 _ hmem
    n w height shape fields rfl f hf
  rintro _ part _ hpart hnode _ _ _ _ _ heq g hg
  cases hnode with
  | scalar _ => contradiction
  | sequence _ _ _ => contradiction
  | @mapping entries children _ hfields =>
    rcases TypeTree.mapping.inj heq with ⟨_, _, _, _, _, rfl⟩
    refine ⟨entries, hpart, ?_⟩
    rcases (mem_distinctFields hg).1 with ⟨c, hc, heq⟩
    rw [← heq, ← keys_of_isField hfields]
    exact List.mem_map_of_mem hc

/-- Keys that are neither of a type known by name nor iterators are of a built-in type. -/
theorem typeName_mem_builtinNames (key : Value) : key.typeName ∈ builtinNames ∨
    (∃ typeName, key = .atom (.named typeName)) ∨ ∃ items, key = .sequence .iterator items := by
  -- Only a value of a caller's type and an iterator are called by a name that has to be imported.
  cases key with
  | atom a =>
    cases a with
    | named typeName => exact Or.inr (Or.inl ⟨typeName, rfl⟩)
    | _ =>
      exact Or.inl (by simp [Value.typeName, Value.kind, ValueKind.typeName, Atom.kind,
        AtomKind.typeName, builtinNames, scalarNames])
  | sequence kind items =>
    cases kind with
    | iterator => exact Or.inr (Or.inr ⟨items, rfl⟩)
    | _ =>
      exact Or.inl (by simp [Value.typeName, Value.kind, ValueKind.typeName, SequenceKind.typeName,
        builtinNames])
  | mapping entries => exact Or.inl (show "dict" ∈ builtinNames by decide)

/-- Where types that only their names are known of are registered under these names, every name
    in a declaration can be used in the module, if it is not that of the type of a key. -/
theorem provides_of_mem_mentions {session : Session}
    (h : infer ⟨s, .importing types⟩ name v = .ok t) (hrender : t.render s = .ok session)
    {d : Declaration} (hd : d ∈ session.blocks) {n : String} (hn : n ∈ d.mentions) (hdots : n ≠ "...") :
    session.Provides (.importing types) n ∨
      ∃ key : Value, key.IsKeyIn v ∧ key.typeName = n ∧
        ((∃ typeName, key = .atom (.named typeName)) ∨ ∃ items, key = .sequence .iterator items) := by
  rcases Session.takes_of_render hrender d hd with ⟨u, hu, rfl, htaken⟩
  -- A name in a declaration is there for one of these reasons, and each says where the name comes
  -- from.
  cases isBacked_of_mem_mentions hn with
  | dots => exact absurd rfl hdots
  | constructor known constructor_taken =>
    exact Or.inl (.constructor known (htaken _ constructor_taken))
  | declared node aliased =>
    rcases exists_isClosedOver_render (wellNamed_of_infer h) hrender with ⟨_, hclosed, _, hdeclared⟩
    rcases hclosed.exists_block (hdeclared _ (mem_nodes_trans hu node) aliased) with ⟨d, hd, hname⟩
    exact Or.inl (.declared hd hname)
  | @scalar _ w type node symbol_taken =>
    have hregistered := hasRegistered_of_infer h _ _ _ (mem_nodes_trans hu node)
    rcases Registry.get?_importing_cases hregistered with hbuiltin | ⟨n, symbol, hkind, rfl⟩
    · exact Or.inl (.builtin (List.mem_append_left _ hbuiltin))
    · rw [hkind] at hregistered
      exact Or.inl (.registered hregistered (htaken _ (symbol_taken symbol rfl)))
  | @key _ _ _ _ _ f node field =>
    rcases typeName_mem_builtinNames f.1 with hbuiltin | hother
    · exact Or.inl (.builtin hbuiltin)
    · exact Or.inr ⟨f.1, isKeyIn_of_mem_fields h (mem_nodes_trans hu node) field, rfl, hother⟩

/-- A price and rates under integers, in a module that imports their type. -/
theorem provides_of_mem_mentions_rates :
    let r := Registry.importing [("Decimal", "decimal.Decimal")]
    let v := Value.mapping [(.str "price", .atom (.named "Decimal")),
      (.str "rates", .mapping [(.int 1, .atom (.named "Decimal"))])]
    ∃ t session, infer ⟨{}, r⟩ "Quote" v = .ok t ∧ t.render {} = .ok session ∧
      session.blocks.map (·.mentions) =
        [["Dict", "int", "Decimal"], ["TypedDict", "Decimal", "QuoteRates"]] ∧
      ∀ d ∈ session.blocks, ∀ n ∈ d.mentions, n ≠ "..." → session.Provides r n ∨
        ∃ key : Value, key.IsKeyIn v ∧ key.typeName = n ∧
          ((∃ typeName, key = .atom (.named typeName)) ∨ ∃ items, key = .sequence .iterator items) := by
  dsimp only
  refine ⟨_, _, rfl, rfl, by decide +kernel, fun d hd n hn hdots => ?_⟩
  exact @provides_of_mem_mentions {} _ "Quote" _ _ _ rfl rfl d hd n hn hdots

/-- The type of a key is registered, but not imported. -/
theorem not_provides_prices :
    let r := Registry.importing [("Decimal", "decimal.Decimal")]
    ∃ t session, infer ⟨{}, r⟩ "Prices" (.mapping [(.atom (.named "Decimal"), .int 1)]) = .ok t ∧
      t.render {} = .ok session ∧ session.symbols.names = ["Dict"] ∧
      ∃ d ∈ session.blocks, "Decimal" ∈ d.mentions ∧ ¬session.Provides r "Decimal" := by
  dsimp only
  refine ⟨_, _, rfl, rfl, by decide +kernel, _, List.mem_singleton_self _, by decide +kernel, ?_⟩
  rintro (known | ⟨block, name_eq⟩ | ⟨known, _⟩ | @⟨symbol, registered, imported⟩)
  · exact absurd known (by decide)
  · rw [List.mem_singleton.mp block] at name_eq
    exact absurd name_eq (by decide +kernel)
  · exact absurd known (by decide)
  · have hget : (Registry.importing [("Decimal", "decimal.Decimal")]).get? (.atom (.named "Decimal")) =
        some (.scalar ⟨"Decimal", some "decimal.Decimal"⟩) := rfl
    rw [hget] at registered
    cases registered
    exact absurd (NameSet.contains_iff.mpr imported) (by decide +kernel)

end Inference

end TypeSketch
