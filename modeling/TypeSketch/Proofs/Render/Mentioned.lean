import TypeSketch.Proofs.Render.Constructors

/-!
# Names in Declarations

Why a name may stand in a declaration. It is a constructor among the symbols that the
declaration takes, the name of a node below that has a declaration of its own, or that of a
scalar type, which brings its symbol. Where a type is left out of a union its symbols stay, so
they can only be too many.

The names of the types of keys are the exception: they are written as they are, and nothing is
taken for them.

## Main definitions

* `TypeExpr.mentions`, `Declaration.mentions`: All names that are written.
* `TypeTree.IsBacked`: Why a name may be written for a node.
* `TypeTree.Backs`: A spelling of a node in which all names may be written.

## Theorems

* `TypeTree.backs_spellUse`, `TypeTree.isBacked_of_mem_mentions`: All names may be written.
-/

namespace TypeSketch

namespace TypeExpr

mutual

/-- All names that a type is written with, constructors among them. -/
def mentions : TypeExpr → List String
  | name s => [s]
  | apply constructor arguments => constructor :: argumentMentions arguments

def argumentMentions : List TypeExpr → List String
  | [] => []
  | e :: rest => mentions e ++ argumentMentions rest

end

theorem argumentMentions_eq_flatMap (arguments : List TypeExpr) :
    argumentMentions arguments = arguments.flatMap mentions := by
  induction arguments with
  | nil => rfl
  | cons e rest ih => rw [argumentMentions, ih, List.flatMap_cons]

theorem mem_mentions_apply {constructor n : String} {arguments : List TypeExpr} :
    n ∈ (apply constructor arguments).mentions ↔
      n = constructor ∨ ∃ e ∈ arguments, n ∈ e.mentions := by
  rw [mentions, argumentMentions_eq_flatMap, List.mem_cons, List.mem_flatMap]

end TypeExpr

/-- All names that a declaration is written with, up to the name that it declares and those of
    fields. -/
def Declaration.mentions : Declaration → List String
  | aliasOf _ type => type.mentions
  | record _ _ fields => "TypedDict" :: fields.flatMap (·.2.mentions)
  | functionalRecord _ fields => "TypedDict" :: fields.flatMap (·.2.mentions)

namespace TypeTree

open Spelling

variable {s : Strategies} {t c : TypeTree} {n : String}

/-- Why a name may be written for a node when these symbols are taken. -/
inductive IsBacked (s : Strategies) (t : TypeTree) (taken : List String) : String → Prop
  | dots : IsBacked s t taken "..."
  | constructor {n : String} (known : n ∈ constructorSymbols) (constructor_taken : n ∈ taken) :
    IsBacked s t taken n
  | declared {u : TypeTree} (node : u ∈ t.nodes) (aliased : u.isAliased s = true) :
    IsBacked s t taken u.name
  | scalar {name : String} {v : Value} {type : ScalarType} (node : .scalar name v type ∈ t.nodes)
    (symbol_taken : ∀ symbol, type.symbol = some symbol → symbol ∈ taken) :
    IsBacked s t taken type.rendered
  | key {name : String} {v : Value} {height : Nat} {shape : Shape} {fields : List (Value × TypeTree)}
    {f : Value × TypeTree} (node : .mapping name v .generic height shape fields ∈ t.nodes)
    (field : f ∈ fields) : IsBacked s t taken f.1.typeName

/-- A spelling in which all names may be written for a node. -/
def Backs (s : Strategies) (t : TypeTree) (spelling : Spelling TypeExpr) : Prop :=
  ∀ n ∈ spelling.written.mentions, t.IsBacked s spelling.symbols n

section Backed

variable {taken more : List String}

theorem IsBacked.mono (h : t.IsBacked s taken n) (hmore : ∀ symbol ∈ taken, symbol ∈ more) :
    t.IsBacked s more n := by
  cases h with
  | dots => exact .dots
  | constructor known constructor_taken => exact .constructor known (hmore _ constructor_taken)
  | declared node aliased => exact .declared node aliased
  | scalar node symbol_taken =>
    exact .scalar node fun symbol hsymbol => hmore symbol (symbol_taken symbol hsymbol)
  | key node field => exact .key node field

theorem IsBacked.of_child (hc : c ∈ t.children) (h : c.IsBacked s taken n) : t.IsBacked s taken n := by
  cases h with
  | dots => exact .dots
  | constructor known constructor_taken => exact .constructor known constructor_taken
  | declared node aliased => exact .declared (mem_nodes_of_child hc node) aliased
  | scalar node symbol_taken => exact .scalar (mem_nodes_of_child hc node) symbol_taken
  | key node field => exact .key (mem_nodes_of_child hc node) field

/-- The names in a list of types, if those in each of them may be written. -/
theorem isBacked_listed {types : List TypeExpr}
    (h : ∀ e ∈ types, ∀ n ∈ e.mentions, t.IsBacked s taken n) :
    ∀ e ∈ (Spelling.listed types).written, ∀ n ∈ e.mentions,
      t.IsBacked s (taken ++ (Spelling.listed types).symbols) n := by
  intro e he n hn
  rw [Spelling.listed] at he ⊢
  split at he
  · rw [List.mem_singleton.mp he] at hn
    rw [List.mem_singleton.mp hn]
    exact .constructor (by decide) (List.mem_append_right _ (by rw [if_pos ‹_›]; decide))
  · exact (h e he n hn).mono fun symbol hsymbol => List.mem_append_left _ hsymbol

/-- The names in a union of types, if those in each of them may be written. -/
theorem isBacked_union {types : List TypeExpr}
    (h : ∀ e ∈ types, ∀ n ∈ e.mentions, t.IsBacked s taken n) :
    ∀ n ∈ (Spelling.union types).written.mentions,
      t.IsBacked s (taken ++ (Spelling.union types).symbols) n := by
  intro n hn
  have hmembers : ∀ e ∈ members types, ∀ n ∈ e.mentions, ∀ symbols,
      t.IsBacked s (taken ++ symbols) n := fun e he n hn symbols =>
    (h e (mem_of_mem_members he).1 n hn).mono fun _ hsymbol => List.mem_append_left _ hsymbol
  rw [union_eq] at hn ⊢
  -- The cases are a union written `Any`, one written as its only member, and one of several.
  match hcases : members types with
  | [] =>
    rw [hcases] at hn
    rw [List.mem_singleton.mp hn]
    exact .constructor (by decide) (List.mem_append_right _ (by decide))
  | [single] =>
    rw [hcases] at hn hmembers
    exact hmembers single List.mem_cons_self n hn []
  | first :: second :: rest =>
    rw [hcases] at hn hmembers
    rcases TypeExpr.mem_mentions_apply.mp hn with rfl | ⟨e, he, hn⟩
    · exact .constructor (by decide) (List.mem_append_right _ List.mem_cons_self)
    · exact hmembers e he n hn ["Union"]

end Backed

section Containers

theorem backs_wrap {constructor : String} {argument : Spelling TypeExpr}
    (hconstructor : constructor ∈ constructorSymbols) (h : t.Backs s argument) :
    t.Backs s (argument.wrap constructor) := by
  intro n hn
  rcases TypeExpr.mem_mentions_apply.mp hn with rfl | ⟨e, he, hn⟩
  · exact .constructor hconstructor List.mem_cons_self
  · rw [List.mem_singleton.mp he] at hn
    exact (h n hn).mono fun _ hsymbol => List.mem_cons_of_mem _ hsymbol

/-- Several spellings take their symbols together. -/
theorem isBacked_of_backs {spellings : List (Spelling TypeExpr)} (h : ∀ e ∈ spellings, t.Backs s e) :
    ∀ e ∈ spellings.map (·.written), ∀ n ∈ e.mentions,
      t.IsBacked s (spellings.flatMap (·.symbols)) n := by
  refine List.forall_mem_map.mpr fun e he n hn => (h e he n hn).mono fun symbol hsymbol => ?_
  exact List.mem_flatMap.mpr ⟨e, he, hsymbol⟩

theorem eq_dots_of_mem_sequenceDots {kind : ElementKind} {e : TypeExpr} (he : e ∈ sequenceDots kind)
    (hn : n ∈ e.mentions) : n = "..." := by
  unfold sequenceDots at he
  split at he
  · rw [List.mem_singleton.mp he] at hn
    exact List.mem_singleton.mp hn
  · exact absurd he List.not_mem_nil

theorem backs_spellSequence {kind : ElementKind} {elements : List (Spelling TypeExpr)}
    (h : ∀ e ∈ elements, t.Backs s e) : t.Backs s (spellSequence s kind elements) := by
  have hsequence : ∀ constructor ∈ sequenceConstructors, constructor ∈ constructorSymbols := by decide
  intro n hn
  -- The constructor stands in front, and behind it the elements are listed or make a union.
  by_cases hfixed : kind = .tuple .fixed
  · subst hfixed
    rw [spellSequence_fixed] at hn
    rcases TypeExpr.mem_mentions_apply.mp hn with rfl | ⟨e, he, hn⟩
    · exact .constructor (by decide) List.mem_cons_self
    · rcases List.mem_append.mp he with he | he
      · refine (isBacked_listed (isBacked_of_backs h) e he n hn).mono fun symbol hsymbol => ?_
        exact List.mem_cons_of_mem _ hsymbol
      · split at he
        · rw [List.mem_singleton.mp he] at hn
          rw [List.mem_singleton.mp hn]
          exact .dots
        · exact absurd he List.not_mem_nil
  · rw [spellSequence_of_ne_fixed hfixed] at hn
    rw [spellSequence_symbols_of_ne_fixed hfixed]
    rcases TypeExpr.mem_mentions_apply.mp hn with rfl | ⟨e, he, hn⟩
    · exact .constructor (hsequence _ (sequenceConstructor_mem s kind)) List.mem_cons_self
    · rcases List.mem_cons.mp he with rfl | he
      · exact (isBacked_union (isBacked_of_backs h) n hn).mono fun _ hsymbol =>
          List.mem_cons_of_mem _ hsymbol
      -- The dots of a tuple of any size are written without any symbol.
      · rw [eq_dots_of_mem_sequenceDots he hn]
        exact .dots

theorem backs_spellGeneric {keyTypes : List String} {values : List (Spelling TypeExpr)}
    (hkeys : ∀ k ∈ keyTypes, t.IsBacked s [] k) (h : ∀ e ∈ values, t.Backs s e) :
    t.Backs s (spellGeneric s keyTypes values) := by
  have hmapping : ∀ constructor ∈ mappingConstructors, constructor ∈ constructorSymbols := by decide
  have hnames : ∀ e ∈ keyTypes.map TypeExpr.name, ∀ n ∈ e.mentions, t.IsBacked s [] n := by
    refine List.forall_mem_map.mpr fun k hk n hn => ?_
    rw [List.mem_singleton.mp hn]
    exact hkeys k hk
  intro n hn
  -- The keys are names without symbols, and the values take theirs.
  rcases TypeExpr.mem_mentions_apply.mp hn with rfl | ⟨e, he, hn⟩
  · exact .constructor (hmapping _ (mappingConstructor_mem s.dictStyle)) List.mem_cons_self
  · rcases List.mem_pair.mp he with rfl | rfl
    · refine (isBacked_union hnames n hn).mono fun symbol hsymbol => ?_
      exact List.mem_append_left _ (List.mem_append_left _ (List.mem_cons_of_mem _ hsymbol))
    · refine (isBacked_union (isBacked_of_backs h) n hn).mono fun symbol hsymbol => ?_
      dsimp only [spellGeneric]
      rcases List.mem_append.mp hsymbol with hsymbol | hsymbol
      · exact List.mem_append_left _ (List.mem_append_right _ hsymbol)
      · exact List.mem_append_right _ hsymbol

end Containers

section Nodes

theorem backs_name (haliased : t.isAliased s = true) : t.Backs s ⟨.name t.name, []⟩ := by
  intro n hn
  rw [List.mem_singleton.mp hn]
  exact .declared (mem_nodes_self t) haliased

/-- The names in a node that is written out, if those in its children may be written. -/
theorem backs_spell_of_children (hrecord : t.isRecord = false)
    (hchildren : ∀ c ∈ t.children, c.Backs s (c.spellUse s)) : t.Backs s (t.spell s) := by
  have huses : ∀ e ∈ t.children.map (spellUse s), t.Backs s e :=
    List.forall_mem_map.mpr fun c hc n hn => (hchildren c hc n hn).of_child hc
  -- The node itself is the reason for its own name, and its children are the reasons for the rest.
  cases t with
  | scalar name v type =>
    intro n hn
    rw [List.mem_singleton.mp hn]
    refine .scalar (mem_nodes_self _) fun symbol hsymbol => ?_
    rw [spell, hsymbol]
    exact List.mem_singleton_self symbol
  | mapping name v form height shape fields =>
    cases form with
    | record profile => contradiction
    | generic =>
      rw [spell, spellFieldUses_eq_map]
      exact backs_spellGeneric
        (List.forall_mem_map.mpr fun f hf => .key (mem_nodes_self _) hf) huses
  | sequence name v kind height shape elements =>
    rw [spell, spellElementUses_eq_map]
    exact backs_spellSequence huses

/-- All names that stand where a node is used may be written. -/
theorem backs_spellUse (s : Strategies) (t : TypeTree) : t.Backs s (t.spellUse s) := by
  induction t using induct_children with
  | node t ih =>
    by_cases haliased : t.isAliased s = true
    · rw [spellUse, if_pos haliased]
      exact backs_name haliased
    · rw [spellUse, if_neg haliased]
      refine backs_spell_of_children ?_ ih
      by_contra hrecord
      exact haliased (isAliased_of_isRecord (Bool.not_eq_false _ ▸ hrecord))

theorem isBacked_spellField {profile : RecordProfile} {key : Value} (h : t.Backs s (c.spellUse s)) :
    ∀ n ∈ (spellField s profile key c).written.2.mentions,
      t.IsBacked s (spellField s profile key c).symbols n := by
  have hoptional : "NotRequired" ∈ constructorSymbols := by decide
  have hreadOnly : "ReadOnly" ∈ constructorSymbols := by decide
  dsimp only [spellField]
  split <;> split
  · exact backs_wrap hoptional (backs_wrap hreadOnly h)
  · exact backs_wrap hoptional h
  · exact backs_wrap hreadOnly h
  · exact h

/-- All names in the declaration of a node may be written. -/
theorem isBacked_of_mem_mentions (h : n ∈ (t.spellDeclaration s).written.mentions) :
    t.IsBacked s (t.spellDeclaration s).symbols n := by
  -- The declaration of a record mentions what its fields do, and every other one gives a type a
  -- name.
  by_cases hrecord : t.isRecord = true
  · rcases exists_eq_of_isRecord hrecord with ⟨name, v, profile, height, shape, fields, rfl⟩
    have hrows : n = "TypedDict" ∨ ∃ row ∈ rows s profile fields, n ∈ row.2.mentions := by
      rw [spellDeclaration_record] at h
      split at h <;> simpa only [Declaration.mentions, List.mem_cons, List.mem_flatMap] using h
    rcases hrows with rfl | ⟨row, hrow, hn⟩
    · exact .constructor (by decide) List.mem_cons_self
    · rcases List.mem_map.mp hrow with ⟨f, hf, rfl⟩
      have huse : Backs s (.mapping name v (.record profile) height shape fields) (f.2.spellUse s) :=
        fun n hn => (backs_spellUse s f.2 n hn).of_child (List.mem_map_of_mem hf)
      refine (isBacked_spellField huse n hn).mono fun symbol hsymbol => List.mem_cons_of_mem _ ?_
      exact List.mem_flatMap.mpr ⟨_, List.mem_map_of_mem hf, hsymbol⟩
  · rw [Bool.not_eq_true] at hrecord
    rw [spellDeclaration_of_not_record hrecord] at h ⊢
    exact backs_spell_of_children hrecord (fun c _ => backs_spellUse s c) n h

end Nodes

end TypeTree

end TypeSketch
