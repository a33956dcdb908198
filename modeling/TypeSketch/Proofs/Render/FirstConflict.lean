import TypeSketch.Proofs.Lists.FirstOccurrences
import TypeSketch.Proofs.Render.Conflicts

/-!
# The First Conflict

What comes out of rendering, read off the tree alone. Declaring a tree goes through its
nodes in post-order, into those below a declared name as well, and it is the same as
declaring the nodes of one list one after another: those below the root that have a
declaration of their own, and then the root.

A session that has gone through a list of nodes holds the first one of each name. So the
next node is left out if its name stands for its digest, it is declared if its name is new,
and it is the conflict that rendering ends with if its name stands for another digest.

## Main definitions

* `TypeTree.postorder`, `TypeTree.inOrder`: The nodes in the order in which they are declared.
* `TypeTree.Clashes`, `TypeTree.IsFirstClash`: A name that an earlier node has taken for
  another digest, and where this happens first.
* `Session.Follows`: What a session holds of the nodes so far.

## Theorems

* `TypeTree.mem_inOrder`: The nodes that get a declaration are those in the list.
* `Session.declare_eq_declareEach`: A tree as a list of nodes.
* `Session.Follows.step`: One more node.
* `Session.declareEach_of_clashFree`, `Session.declareEach_of_isFirstClash`: All nodes.
* `TypeTree.outcome_of_render`: When rendering fails, with which name, and what it declares.
-/

namespace TypeSketch

namespace TypeTree

mutual

/-- All nodes of a tree, each behind those below it. -/
def postorder : TypeTree → List TypeTree
  | scalar name v type => [scalar name v type]
  | mapping name v form height shape fields =>
    fieldsPostorder fields ++ [mapping name v form height shape fields]
  | sequence name v kind height shape elements =>
    elementsPostorder elements ++ [sequence name v kind height shape elements]

def fieldsPostorder : List (Value × TypeTree) → List TypeTree
  | [] => []
  | (_, child) :: rest => postorder child ++ fieldsPostorder rest

def elementsPostorder : List TypeTree → List TypeTree
  | [] => []
  | child :: rest => postorder child ++ elementsPostorder rest

end

/-- The nodes that get a declaration: those below the root that have one of their own, in
    post-order, and the root. -/
def inOrder (s : Strategies) (t : TypeTree) : List TypeTree :=
  (t.children.flatMap postorder).filter (·.isAliased s) ++ [t]

/-- The name of a node has been taken by an earlier one of another digest. -/
def Clashes (earlier : List TypeTree) (t : TypeTree) : Prop :=
  ∃ u ∈ earlier, u.name = t.name ∧ u.digest ≠ t.digest

/-- No node has the name of an earlier one of another digest. -/
def ClashFree (nodes : List TypeTree) : Prop :=
  nodes.Pairwise fun u t => u.name = t.name → u.digest = t.digest

/-- The first node of a list whose name has been taken by an earlier one of another digest. -/
def IsFirstClash (nodes : List TypeTree) (t : TypeTree) : Prop :=
  ∃ earlier later, nodes = earlier ++ t :: later ∧ ClashFree earlier ∧ Clashes earlier t

variable {s : Strategies} {t u : TypeTree} {nodes : List TypeTree}

theorem postorder_eq (t : TypeTree) : t.postorder = t.children.flatMap postorder ++ [t] := by
  have hfields : ∀ fields : List (Value × TypeTree),
      fieldsPostorder fields = (fields.map (·.2)).flatMap postorder := by
    intro fields
    induction fields with
    | nil => rfl
    | cons f rest ih => rw [fieldsPostorder, ih, List.map_cons, List.flatMap_cons]
  have helements : ∀ elements : List TypeTree,
      elementsPostorder elements = elements.flatMap postorder := by
    intro elements
    induction elements with
    | nil => rfl
    | cons e rest ih => rw [elementsPostorder, ih, List.flatMap_cons]
  -- The recursion goes through fields and elements by functions of its own, and both are
  -- concatenations.
  cases t with
  | scalar name v type => rfl
  | mapping name v form height shape fields => rw [postorder, hfields, children]
  | sequence name v kind height shape elements => rw [postorder, helements, children]

theorem mem_postorder : u ∈ t.postorder ↔ u ∈ t.nodes := by
  induction t using induct_children with
  | node t ih =>
    rw [postorder_eq, mem_nodes, mem_descendants, List.mem_append, List.mem_flatMap,
      List.mem_singleton, or_comm]
    exact or_congr_right (exists_congr fun c => and_congr_right (ih c))

theorem mem_inOrder : u ∈ t.inOrder s ↔ IsDeclared s t u := by
  have hbelow : u ∈ t.children.flatMap postorder ↔ u ∈ t.descendants := by
    rw [List.mem_flatMap, mem_descendants]
    exact exists_congr fun c => and_congr_right fun _ => mem_postorder
  rw [inOrder, List.mem_append, List.mem_filter, List.mem_singleton, hbelow, IsDeclared, mem_nodes]
  constructor
  · rintro (⟨hu, haliased⟩ | rfl)
    · exact ⟨Or.inr hu, Or.inr haliased⟩
    · exact ⟨Or.inl rfl, Or.inl rfl⟩
  · rintro ⟨hu, hdeclared⟩
    by_cases hroot : u = t
    · exact Or.inr hroot
    · exact Or.inl ⟨hu.resolve_left hroot, hdeclared.resolve_left hroot⟩

theorem clashFree_concat : ClashFree (nodes ++ [t]) ↔ ClashFree nodes ∧ ¬Clashes nodes t := by
  rw [ClashFree, List.pairwise_append, Clashes, not_exists]
  simp only [List.pairwise_singleton, List.mem_singleton, forall_eq, true_and, not_and, not_not]
  rfl

/-- Where there is a clash, there is a first one. -/
theorem clashFree_or_exists_isFirstClash (nodes : List TypeTree) :
    ClashFree nodes ∨ ∃ t, IsFirstClash nodes t := by
  induction nodes using List.reverseRecOn with
  | nil => exact Or.inl List.Pairwise.nil
  | append_singleton nodes t ih =>
    rcases ih with hfree | ⟨u, earlier, later, rfl, hfree, hclash⟩
    · by_cases hclash : Clashes nodes t
      · exact Or.inr ⟨t, nodes, [], rfl, hfree, hclash⟩
      · exact Or.inl (clashFree_concat.mpr ⟨hfree, hclash⟩)
    · exact Or.inr ⟨u, earlier, later ++ [t], by rw [List.append_assoc]; rfl, hfree, hclash⟩

end TypeTree

namespace Session

open TypeTree

variable {s : Strategies} {session : Session} {t : TypeTree} {nodes : List TypeTree}

/-- Declares nodes one after another, each without those below it. -/
def declareEach (s : Strategies) : List TypeTree → Session → Except InferenceError Unit × Session
  | [], session => (.ok (), session)
  | t :: rest, session => andThen (declareNode s true t session) (declareEach s rest)

/-- What a session holds after some nodes: the first one of each name, and for each node its
    digest under its name. -/
structure Follows (s : Strategies) (session : Session) (nodes : List TypeTree) : Prop where
  declared_eq : session.declared = (firstsBy name nodes).map fun t => (t.name, t.digest)
  blocks_eq : session.blocks = (firstsBy name nodes).map fun t => (t.spellDeclaration s).written
  digestOf?_eq : ∀ t ∈ nodes, session.digestOf? t.name = some t.digest

section Order

theorem declareEach_append (nodes more : List TypeTree) (session : Session) :
    declareEach s (nodes ++ more) session =
      andThen (declareEach s nodes session) (declareEach s more) := by
  induction nodes generalizing session with
  | nil => rfl
  | cons t rest ih =>
    rw [List.cons_append, declareEach, declareEach]
    rcases declareNode s true t session with ⟨_ | _, middle⟩
    · rfl
    · exact ih middle

theorem declareEach_singleton (t : TypeTree) (session : Session) :
    declareEach s [t] session = declareNode s true t session := by
  rw [declareEach]
  rcases declareNode s true t session with ⟨_ | _, middle⟩ <;> rfl

/-- A node is declared on its own if it gets a declaration, and not at all if not. -/
theorem declareNode_false_eq (t : TypeTree) (session : Session) :
    declareNode s false t session = declareEach s ([t].filter (·.isAliased s)) session := by
  by_cases haliased : t.isAliased s = true
  · rw [List.filter_cons_of_pos haliased, List.filter_nil, declareEach_singleton, declareNode,
      declareNode, haliased]
    rfl
  · rw [List.filter_cons_of_neg haliased, List.filter_nil, declareNode]
    rw [Bool.not_eq_true] at haliased
    rw [haliased]
    rfl

/-- Trees one after another, if each of them alone is a list of nodes. -/
theorem declareAll_eq_declareEach {trees : List TypeTree}
    (h : ∀ t ∈ trees, ∀ session, declare s false t session =
      declareEach s (t.postorder.filter (·.isAliased s)) session) (session : Session) :
    declareAll s trees session =
      declareEach s ((trees.flatMap postorder).filter (·.isAliased s)) session := by
  induction trees generalizing session with
  | nil => rfl
  | cons t rest ih =>
    rw [List.flatMap_cons, List.filter_append, declareEach_append, declareAll,
      h t List.mem_cons_self]
    exact congrArg _ (funext (ih fun u hu => h u (List.mem_cons_of_mem t hu)))

/-- A tree below a root as a list of nodes. -/
theorem declare_false_eq (t : TypeTree) (session : Session) :
    declare s false t session = declareEach s (t.postorder.filter (·.isAliased s)) session := by
  induction t using induct_children generalizing session with
  | node t ih =>
    rw [declare_eq, declareAll_eq_declareEach ih, postorder_eq, List.filter_append,
      declareEach_append]
    exact congrArg _ (funext (declareNode_false_eq t))

/-- Declaring a tree is declaring its nodes in post-order. -/
theorem declare_eq_declareEach (t : TypeTree) (session : Session) :
    declare s true t session = declareEach s (t.inOrder s) session := by
  rw [declare_eq, declareAll_eq_declareEach fun c _ => declare_false_eq c, inOrder,
    declareEach_append]
  exact congrArg _ (funext fun middle => (declareEach_singleton t middle).symm)

end Order

section Run

theorem Follows.empty : Follows s {} [] where
  declared_eq := by rw [firstsBy_nil]; rfl
  blocks_eq := by rw [firstsBy_nil]; rfl
  digestOf?_eq := fun t ht => absurd ht List.not_mem_nil

/-- A name that no node has had is not in the table. -/
theorem Follows.digestOf?_eq_none (h : session.Follows s nodes)
    (hfresh : t.name ∉ nodes.map TypeTree.name) : session.digestOf? t.name = none := by
  rw [digestOf?, List.lookup_eq_none_iff, h.declared_eq]
  refine List.forall_mem_map.mpr fun u hu => ?_
  rw [bne_iff_ne]
  intro heq
  exact hfresh (mem_map_firstsBy.mp (heq ▸ List.mem_map_of_mem hu))

/-- A node whose name stands for another digest ends with a conflict. -/
theorem Follows.declareNode_of_clashes (h : session.Follows s nodes) (hclash : Clashes nodes t) :
    declareNode s true t session = (.error (.nameConflict t.name), session) := by
  rcases hclash with ⟨u, hu, hname, hdigest⟩
  have hentry := h.digestOf?_eq u hu
  rw [hname] at hentry
  rw [declareNode, hentry]
  exact if_neg hdigest

/-- A node whose name is new, or stands for its digest, goes through. -/
theorem Follows.step (h : session.Follows s nodes) (hclash : ¬Clashes nodes t) :
    ∃ later, declareNode s true t session = (.ok (), later) ∧ later.Follows s (nodes ++ [t]) := by
  -- A known name has the digest of this node, as there is no clash, and nothing is added. A new
  -- name gets an entry and a declaration.
  by_cases hknown : t.name ∈ nodes.map TypeTree.name
  · rcases List.mem_map.mp hknown with ⟨u, hu, hname⟩
    have hdigest : u.digest = t.digest := by
      by_contra hne
      exact hclash ⟨u, hu, hname, hne⟩
    have hentry : session.digestOf? t.name = some t.digest := by
      rw [← hname, ← hdigest]
      exact h.digestOf?_eq u hu
    refine ⟨session, ?_, ?_, ?_, ?_⟩
    · rw [declareNode, hentry]
      exact if_pos rfl
    · rw [firstsBy_concat, if_pos hknown]
      exact h.declared_eq
    · rw [firstsBy_concat, if_pos hknown]
      exact h.blocks_eq
    · intro w hw
      rcases List.mem_append.mp hw with hw | hw
      · exact h.digestOf?_eq w hw
      · rw [List.mem_singleton.mp hw]
        exact hentry
  · have hnone := h.digestOf?_eq_none hknown
    refine ⟨_, by rw [declareNode, hnone]; rfl, ?_, ?_, ?_⟩
    · rw [firstsBy_concat, if_neg hknown, List.map_append, ← h.declared_eq]
      rfl
    · rw [firstsBy_concat, if_neg hknown, List.map_append, ← h.blocks_eq]
      rfl
    · intro w hw
      rw [digestOf?, List.lookup_append]
      change (session.digestOf? w.name).or _ = _
      rcases List.mem_append.mp hw with hw | hw
      · rw [h.digestOf?_eq w hw, Option.some_or]
      · rw [List.mem_singleton.mp hw, hnone, Option.none_or, List.lookup_cons_self]

/-- Nodes without a clash are all gone through. -/
theorem declareEach_of_clashFree (h : ClashFree nodes) :
    ∃ session, declareEach s nodes {} = (.ok (), session) ∧ session.Follows s nodes := by
  induction nodes using List.reverseRecOn with
  | nil => exact ⟨{}, rfl, .empty⟩
  | append_singleton nodes t ih =>
    rcases clashFree_concat.mp h with ⟨hfree, hclash⟩
    rcases ih hfree with ⟨session, hsession, hfollows⟩
    rcases hfollows.step hclash with ⟨later, hlater, hnext⟩
    refine ⟨later, ?_, hnext⟩
    rw [declareEach_append, hsession, andThen, declareEach_singleton, hlater]

/-- The first clash is what rendering ends with, whatever comes behind. -/
theorem declareEach_of_isFirstClash (h : IsFirstClash nodes t) :
    ∃ session, declareEach s nodes {} = (.error (.nameConflict t.name), session) := by
  rcases h with ⟨earlier, later, rfl, hfree, hclash⟩
  rcases declareEach_of_clashFree (s := s) hfree with ⟨session, hsession, hfollows⟩
  refine ⟨session, ?_⟩
  rw [declareEach_append, hsession, andThen, declareEach, hfollows.declareNode_of_clashes hclash,
    andThen]

end Run

end Session

namespace TypeTree

open Session

variable {s : Strategies} {t u : TypeTree}

/-- Rendering fails if and only if a name stands for two digests. -/
theorem exists_render_eq_error_iff : (∃ e, t.render s = .error e) ↔
    ∃ u w, IsDeclared s t u ∧ IsDeclared s t w ∧ u.name = w.name ∧ u.digest ≠ w.digest := by
  have hok : (∃ e, t.render s = .error e) ↔ ¬∃ session, t.render s = .ok session := by
    cases t.render s with
    | error e => simp only [Except.error.injEq, exists_eq', reduceCtorEq, exists_false, not_false_eq_true]
    | ok session => simp only [reduceCtorEq, exists_false, Except.ok.injEq, exists_eq', not_true]
  rw [hok, render_eq_ok_iff, IsUnambiguous]
  simp only [not_forall, exists_prop]

theorem render_of_isFirstClash (h : IsFirstClash (t.inOrder s) u) :
    t.render s = .error (.nameConflict u.name) := by
  rcases declareEach_of_isFirstClash (s := s) h with ⟨session, hsession⟩
  rw [render, declare_eq_declareEach, hsession]

theorem render_of_clashFree (h : ClashFree (t.inOrder s)) :
    ∃ session, t.render s = .ok session ∧ session.Follows s (t.inOrder s) := by
  rcases declareEach_of_clashFree (s := s) h with ⟨session, hsession, hfollows⟩
  exact ⟨session, by rw [render, declare_eq_declareEach, hsession], hfollows⟩

/-- Rendering fails if and only if two nodes that get a declaration have one name and two
    digests. It ends with the name of the first node, in post-order, whose name an earlier one has
    taken for another digest. If it succeeds, the first node of each name is declared. -/
theorem outcome_of_render (s : Strategies) (t : TypeTree) :
    ((∃ e, t.render s = .error e) ↔ ∃ u w, IsDeclared s t u ∧ IsDeclared s t w ∧
      u.name = w.name ∧ u.digest ≠ w.digest) ∧
    (∀ e, t.render s = .error e ↔ ∃ u, IsFirstClash (t.inOrder s) u ∧ e = .nameConflict u.name) ∧
    ∀ session, t.render s = .ok session →
      session.declared = (firstsBy name (t.inOrder s)).map (fun u => (u.name, u.digest)) ∧
      session.blocks =
        (firstsBy name (t.inOrder s)).map fun u => (u.spellDeclaration s).written := by
  refine ⟨exists_render_eq_error_iff, fun e => ⟨fun herror => ?_, ?_⟩, fun session hok => ?_⟩
  -- Either the order has a first clash or none, and each of the two says what rendering does.
  · rcases clashFree_or_exists_isFirstClash (t.inOrder s) with hfree | ⟨u, hu⟩
    · rcases render_of_clashFree hfree with ⟨session, hok, _⟩
      rw [hok] at herror
      contradiction
    · rw [render_of_isFirstClash hu, Except.error.injEq] at herror
      exact ⟨u, hu, herror.symm⟩
  · rintro ⟨u, hu, rfl⟩
    exact render_of_isFirstClash hu
  · rcases clashFree_or_exists_isFirstClash (t.inOrder s) with hfree | ⟨u, hu⟩
    · rcases render_of_clashFree hfree with ⟨_, hsame, hfollows⟩
      rw [hsame, Except.ok.injEq] at hok
      rw [← hok]
      exact ⟨hfollows.declared_eq, hfollows.blocks_eq⟩
    · rw [render_of_isFirstClash hu] at hok
      contradiction

/-- Two keys that give one name are in conflict if their records differ, and share a declaration
    if not. -/
theorem outcome_of_render_keys :
    (∃ t, Inference.infer {} "E" (.mapping [(.str "a_b", .mapping [(.str "x", .int 1)]),
        (.str "aB", .mapping [(.str "y", .int 1)])]) = .ok t ∧
      ∃ u, IsFirstClash (t.inOrder {}) u ∧ u.name = "EAB") ∧
    ∃ t, Inference.infer {} "E" (.mapping [(.str "a_b", .mapping [(.str "x", .int 1)]),
        (.str "aB", .mapping [(.str "x", .int 2)])]) = .ok t ∧
      ∃ session, t.render {} = .ok session ∧
        (firstsBy name (t.inOrder {})).map name = ["EAB", "E"] := by
  constructor
  -- Both keys are `AB` in camel case. With two shapes below them the second one clashes, and with
  -- one it does not.
  · refine ⟨_, rfl, ?_⟩
    generalize htree : ofFields "E" _ _ _ = t
    have hrender : (t.render {}).map (fun session => session.declared.map (·.1)) =
        .error (.nameConflict "EAB") := by
      rw [← htree]
      decide +kernel
    rcases herror : t.render {} with e | session <;> rw [herror] at hrender
    · rcases ((outcome_of_render {} t).2.1 e).mp herror with ⟨u, hu, rfl⟩
      exact ⟨u, hu, InferenceError.nameConflict.inj (Except.error.inj hrender)⟩
    · contradiction
  · refine ⟨_, rfl, ?_⟩
    generalize htree : ofFields "E" _ _ _ = t
    have hrender : (t.render {}).map (fun session => session.declared.map (·.1)) =
        .ok ["EAB", "E"] := by
      rw [← htree]
      decide +kernel
    rcases hok : t.render {} with e | session <;> rw [hok] at hrender
    · contradiction
    · refine ⟨session, rfl, ?_⟩
      have hnames : session.declared.map (·.1) = ["EAB", "E"] := Except.ok.inj hrender
      rw [((outcome_of_render {} t).2.2 session hok).1, List.map_map] at hnames
      exact hnames

end TypeTree

end TypeSketch
