import TypeSketch.Proofs.Names.WellNamed
import TypeSketch.Proofs.Render.References
import TypeSketch.Render.Session

/-!
# Closed Sessions

Whatever is asked of a session, in whatever order, its declarations can be read from the
first to the last. The table of names and the declarations are made from one list of
nodes, no name is declared twice, and a declaration refers only to nodes that an earlier
one has been made for, or one of the same digest under the same name.

The invariant is `Session.IsClosedOver`, with the list of nodes that it is about. One
step is a node that is declared: it is put behind the others, and its references are
behind none of them, because the nodes below it have been declared before. A conflict
ends a call in the middle; the nodes that have been declared until then stay, and the
invariant says nothing that they would break.

A session of one inferred tree declares the root last. The root cannot find its name in
the table: the names of all nodes below it are its own with a suffix.

## Main definitions

* `Session.IsClosedOver`: The invariant.
* `Session.Call`, `Session.run`: What a session is asked for, one call after another.

## Theorems

* `Session.declare_induct`: What declaring one node keeps is kept by declaring a tree.
* `Session.declareNode_cases`: What declaring one node can do.
* `Session.IsClosedOver.after_declare`: Declaring a tree keeps a session closed.
* `Session.closed_and_ordered`: Sessions are closed after all calls.
-/

namespace TypeSketch

namespace Session

open TypeTree

/-- The table and the declarations of a session are those of a list of nodes, each with
    the strategies it has been declared by, and what one of them refers to comes before
    it. -/
structure IsClosedOver (session : Session) (nodes : List (Strategies × TypeTree)) : Prop where
  declared_eq : session.declared = nodes.map fun n => (n.2.name, n.2.digest)
  blocks_eq : session.blocks = nodes.map fun n => (n.2.spellDeclaration n.1).written
  names_nodup : (session.declared.map (·.1)).Nodup
  references_earlier : ∀ before n after, nodes = before ++ n :: after →
    ∀ u ∈ n.2.references n.1, ∃ m ∈ before, m.2.name = u.name ∧ m.2.digest = u.digest
  names_earlier : ∀ before n after, nodes = before ++ n :: after →
    ∀ name ∈ (n.2.spellDeclaration n.1).written.typeNames,
      (∃ m ∈ before, m.2.name = name) ∨ n.2.IsWord name

/-- Something that a session is asked for. -/
inductive Call where
  | declare (s : Strategies) (demanded : Bool) (t : TypeTree)
  | use (s : Strategies) (t : TypeTree)
  | writeOut (s : Strategies) (t : TypeTree)
  | writeSelf (s : Strategies) (t : TypeTree)
  | require (symbol : String)

/-- The session after a call. What a call gives back, an error included, is left out. -/
def perform (session : Session) : Call → Session
  | .declare s demanded t => (declare s demanded t session).2
  | .use s t => (use s t session).2
  | .writeOut s t => (writeOut s t session).2
  | .writeSelf s t => (writeSelf s t session).2
  | .require symbol => session.require symbol

/-- The session after calls to a new one. -/
def run (calls : List Call) : Session :=
  calls.foldl perform {}

/-- Declaring trees one after another. -/
def declareAll (s : Strategies) : List TypeTree → Session → Except InferenceError Unit × Session
  | [], session => (.ok (), session)
  | t :: rest, session => andThen (declare s false t session) (declareAll s rest)

variable {s : Strategies} {demanded : Bool} {t u : TypeTree} {session : Session}
  {nodes : List (Strategies × TypeTree)}

section Equations

theorem declareFields_eq (s : Strategies) (fields : List (Value × TypeTree)) (session : Session) :
    declareFields s fields session = declareAll s (fields.map (·.2)) session := by
  induction fields generalizing session with
  | nil => rfl
  | cons f rest ih =>
    rw [declareFields, List.map_cons, declareAll]
    exact congrArg (andThen _) (funext ih)

theorem declareElements_eq (s : Strategies) (elements : List TypeTree) (session : Session) :
    declareElements s elements session = declareAll s elements session := by
  induction elements generalizing session with
  | nil => rfl
  | cons e rest ih =>
    rw [declareElements, declareAll]
    exact congrArg (andThen _) (funext ih)

theorem declare_eq (s : Strategies) (demanded : Bool) (t : TypeTree) (session : Session) :
    declare s demanded t session =
      andThen (declareAll s t.children session) (declareNode s demanded t) := by
  cases t with
  | scalar name v type => rfl
  | mapping name v form height shape fields => rw [declare, declareFields_eq]; rfl
  | sequence name v kind height shape elements => rw [declare, declareElements_eq]; rfl

theorem declareAll_induct {P : Session → Prop} {trees : List TypeTree}
    (hdeclare : ∀ t ∈ trees, ∀ session, P session → P (declare s false t session).2)
    (h : P session) : P (declareAll s trees session).2 := by
  induction trees generalizing session with
  | nil => exact h
  | cons t rest ih =>
    have hfirst := hdeclare t List.mem_cons_self session h
    rw [declareAll]
    rcases hresult : declare s false t session with ⟨_ | _, middle⟩ <;> rw [hresult] at hfirst
    · exact hfirst
    · exact ih (fun t ht => hdeclare t (List.mem_cons_of_mem _ ht)) hfirst

/-- What declaring one node keeps is kept by declaring a tree, also if it ends with a
    conflict. -/
theorem declare_induct {P : Session → Prop}
    (hnode : ∀ u ∈ t.nodes, ∀ demanded session, P session → P (declareNode s demanded u session).2)
    (h : P session) : P (declare s demanded t session).2 := by
  induction t using induct_children generalizing demanded session with
  | node t ih =>
    have hchildren : P (declareAll s t.children session).2 :=
      declareAll_induct (fun c hc session h =>
        ih c hc (fun u hu => hnode u (mem_nodes_of_child hc hu)) h) h
    rw [declare_eq]
    rcases hresult : declareAll s t.children session with ⟨_ | _, middle⟩ <;>
      rw [hresult] at hchildren
    · exact hchildren
    · exact hnode t (mem_nodes_self t) demanded middle hchildren

/-- What declaring one node can do: nothing, fail because the name stands for another
    digest, or put the node behind the others. -/
theorem declareNode_cases (s : Strategies) (demanded : Bool) (t : TypeTree) (session : Session) :
    (declareNode s demanded t session = (.ok (), session) ∧
        ((demanded = false ∧ t.isAliased s = false) ∨ session.digestOf? t.name = some t.digest)) ∨
    (declareNode s demanded t session = (.error (.nameConflict t.name), session) ∧
        ∃ digest, session.digestOf? t.name = some digest ∧ digest ≠ t.digest) ∨
    ((∃ symbols, declareNode s demanded t session = (.ok (), {
          declared := session.declared ++ [(t.name, t.digest)]
          blocks := session.blocks ++ [(t.spellDeclaration s).written]
          symbols := symbols })) ∧
        (demanded = true ∨ t.isAliased s = true) ∧ session.digestOf? t.name = none) := by
  -- The branches are those of the code: not wanted, already in the table under one digest or
  -- another, and new.
  rw [declareNode]
  split
  · next h =>
    rw [Bool.and_eq_true, Bool.not_eq_true', Bool.not_eq_true'] at h
    exact Or.inl ⟨rfl, Or.inl h⟩
  · next h =>
    have hwanted : demanded = true ∨ t.isAliased s = true := by
      cases demanded
      · exact Or.inr (by simpa using h)
      · exact Or.inl rfl
    split
    · next digest hdigest =>
      split
      · next heq => exact Or.inl ⟨rfl, Or.inr (by rw [hdigest, heq])⟩
      · next hne => exact Or.inr (Or.inl ⟨rfl, digest, hdigest, hne⟩)
    · next hnone => exact Or.inr (Or.inr ⟨⟨_, rfl⟩, hwanted, hnone⟩)

end Equations

section Invariant

theorem IsClosedOver.empty : IsClosedOver {} [] where
  declared_eq := rfl
  blocks_eq := rfl
  names_nodup := List.nodup_nil
  references_earlier := fun before n after h => absurd h (by simp)
  names_earlier := fun before n after h => absurd h (by simp)

/-- Symbols are not looked at. -/
theorem IsClosedOver.of_eq {other : Session} (h : session.IsClosedOver nodes)
    (hdeclared : other.declared = session.declared) (hblocks : other.blocks = session.blocks) :
    other.IsClosedOver nodes where
  declared_eq := hdeclared.trans h.declared_eq
  blocks_eq := hblocks.trans h.blocks_eq
  names_nodup := by rw [hdeclared]; exact h.names_nodup
  references_earlier := h.references_earlier
  names_earlier := h.names_earlier

theorem IsClosedOver.mem_declared_iff (h : session.IsClosedOver nodes) {entry : String × UInt64} :
    entry ∈ session.declared ↔ ∃ n ∈ nodes, n.2.name = entry.1 ∧ n.2.digest = entry.2 := by
  rw [h.declared_eq, List.mem_map]
  simp only [Prod.ext_iff]

/-- A node whose references have been declared is put behind the others. -/
theorem IsClosedOver.snoc (h : session.IsClosedOver nodes) (hfresh : session.digestOf? t.name = none)
    (hreferences : ∀ u ∈ t.references s, (u.name, u.digest) ∈ session.declared) (symbols : NameSet) :
    IsClosedOver {
      declared := session.declared ++ [(t.name, t.digest)]
      blocks := session.blocks ++ [(t.spellDeclaration s).written]
      symbols := symbols } (nodes ++ [(s, t)]) := by
  -- The new node is the last one, or the split is one of the nodes before it.
  have hsplit : ∀ before n after, nodes ++ [(s, t)] = before ++ n :: after →
      (before = nodes ∧ n = (s, t)) ∨ ∃ rest, nodes = before ++ n :: rest := by
    intro before n after heq
    rcases List.eq_nil_or_concat after with rfl | ⟨rest, last, rfl⟩
    · exact Or.inl ⟨(List.append_inj' heq rfl).1.symm,
        (List.cons.inj (List.append_inj' heq rfl).2).1.symm⟩
    · rw [List.concat_eq_append, ← List.cons_append, ← List.append_assoc] at heq
      exact Or.inr ⟨rest, (List.append_inj' heq rfl).1⟩
  have hearlier : ∀ u ∈ t.references s, ∃ m ∈ nodes, m.2.name = u.name ∧ m.2.digest = u.digest :=
    fun u hu => h.mem_declared_iff.mp (hreferences u hu)
  constructor
  · rw [List.map_append, ← h.declared_eq]
    rfl
  · rw [List.map_append, ← h.blocks_eq]
    rfl
  -- The name is new, because looking it up has found nothing.
  · rw [List.map_append, List.nodup_append]
    refine ⟨h.names_nodup, List.pairwise_singleton _ _, fun name hname other hother => ?_⟩
    rw [List.mem_singleton.mp hother]
    rintro rfl
    rcases List.mem_map.mp hname with ⟨entry, hentry, heq⟩
    rw [digestOf?, List.lookup_eq_none_iff] at hfresh
    exact absurd heq.symm (by simpa using hfresh entry hentry)
  -- References of the new node are in the table, and those of the others stay where they were.
  · intro before n after heq u hu
    rcases hsplit before n after heq with ⟨rfl, rfl⟩ | ⟨rest, hrest⟩
    · exact hearlier u hu
    · exact h.references_earlier before n rest hrest u hu
  · intro before n after heq name hname
    rcases hsplit before n after heq with ⟨rfl, rfl⟩ | ⟨rest, hrest⟩
    -- What a declaration spells out is the name of a reference or a word of the language.
    · rcases name_of_mem_typeNames hname with ⟨u, hu, rfl⟩ | hword
      · rcases hearlier u hu with ⟨m, hm, hm', _⟩
        exact Or.inl ⟨m, hm, hm'⟩
      · exact Or.inr hword
    · exact h.names_earlier before n rest hrest name hname

/-- One node after the nodes that it refers to: it is put behind the others or left out,
    and if it is wanted and there is no conflict, it is in the table afterwards. -/
theorem IsClosedOver.after_declareNode (h : session.IsClosedOver nodes)
    (hreferences : ∀ u ∈ t.references s, (u.name, u.digest) ∈ session.declared) :
    ∃ last : List TypeTree, (declareNode s demanded t session).2.IsClosedOver (nodes ++ last.map (s, ·)) ∧
      (last = [] ∨ last = [t] ∧ (demanded = true ∨ t.isAliased s = true)) ∧
      ((declareNode s demanded t session).1 = .ok () → demanded = true ∨ t.isAliased s = true →
        (t.name, t.digest) ∈ (declareNode s demanded t session).2.declared) := by
  have hkept : session.IsClosedOver (nodes ++ ([] : List TypeTree).map (s, ·)) := by
    rw [List.map_nil, List.append_nil]
    exact h
  -- Either nothing is to be done, or the name is taken by another type, or the node is declared.
  rcases declareNode_cases s demanded t session with ⟨heq, hreason⟩ | ⟨heq, hconflict⟩ |
    ⟨⟨symbols, heq⟩, hwanted, hfresh⟩
  · rw [heq]
    refine ⟨[], hkept, Or.inl rfl, fun _ hwanted => ?_⟩
    rcases hreason with hunwanted | hdigest
    · rw [hunwanted.1, hunwanted.2] at hwanted
      exact absurd hwanted (by decide)
    · exact mem_of_lookup_eq_some hdigest
  · rw [heq]
    exact ⟨[], hkept, Or.inl rfl, fun hok => nomatch hok⟩
  · rw [heq]
    refine ⟨[t], h.snoc hfresh hreferences symbols, Or.inr ⟨rfl, hwanted⟩, fun _ _ => ?_⟩
    exact List.mem_append_right _ (List.mem_singleton_self _)

/-- What declaring trees has done: some nodes of theirs that get a declaration have been
    put behind the others, and if there was no conflict, all of them are in the table. -/
structure HasDeclared (s : Strategies) (trees : List TypeTree) (nodes : List (Strategies × TypeTree))
    (result : Except InferenceError Unit × Session) (added : List TypeTree) : Prop where
  closed : result.2.IsClosedOver (nodes ++ added.map (s, ·))
  added_below : ∀ u ∈ added, (∃ t ∈ trees, u ∈ t.nodes) ∧ u.isAliased s = true
  complete : result.1 = .ok () → ∀ t ∈ trees, ∀ u ∈ t.nodes, u.isAliased s = true →
    (u.name, u.digest) ∈ result.2.declared

/-- What has been declared stays so. -/
theorem IsClosedOver.declared_mono {later : Session} {more : List (Strategies × TypeTree)}
    (h : session.IsClosedOver nodes) (hlater : later.IsClosedOver (nodes ++ more))
    {entry : String × UInt64} (hentry : entry ∈ session.declared) : entry ∈ later.declared := by
  rcases h.mem_declared_iff.mp hentry with ⟨n, hn, heq⟩
  exact hlater.mem_declared_iff.mpr ⟨n, List.mem_append_left _ hn, heq⟩

/-- Trees one after another, if each of them alone keeps sessions closed. -/
theorem IsClosedOver.declareAll_of_forall {trees : List TypeTree}
    (ih : ∀ t ∈ trees, ∀ session nodes, IsClosedOver session nodes →
      ∃ added, HasDeclared s [t] nodes (declare s false t session) added)
    (h : session.IsClosedOver nodes) :
    ∃ added, HasDeclared s trees nodes (declareAll s trees session) added := by
  induction trees generalizing session nodes with
  | nil =>
    refine ⟨[], ?_, fun u hu => absurd hu List.not_mem_nil, fun _ t ht => absurd ht List.not_mem_nil⟩
    rw [List.map_nil, List.append_nil]
    exact h
  | cons t rest ihrest =>
    rcases ih t List.mem_cons_self session nodes h with ⟨added, hfirst⟩
    rw [declareAll]
    -- A conflict in the first tree ends the call, and its nodes stay. Otherwise the rest goes on
    -- from where the first tree has stopped.
    rcases hresult : declare s false t session with ⟨_ | _, middle⟩
    · rw [hresult] at hfirst
      refine ⟨added, hfirst.closed, fun u hu => ?_, fun hok => nomatch hok⟩
      rcases hfirst.added_below u hu with ⟨⟨t', ht', hnode⟩, haliased⟩
      rw [List.mem_singleton.mp ht'] at hnode
      exact ⟨⟨t, List.mem_cons_self, hnode⟩, haliased⟩
    · rw [hresult] at hfirst
      rcases ihrest (fun t' ht' => ih t' (List.mem_cons_of_mem t ht')) hfirst.closed with
        ⟨addedRest, hrest⟩
      have hclosed := hrest.closed
      refine ⟨added ++ addedRest, ?_, fun u hu => ?_, fun hok t' ht' u hu haliased => ?_⟩
      · rw [List.map_append, ← List.append_assoc]
        exact hclosed
      · rcases List.mem_append.mp hu with hu | hu
        · rcases hfirst.added_below u hu with ⟨⟨t', ht', hnode⟩, haliased⟩
          rw [List.mem_singleton.mp ht'] at hnode
          exact ⟨⟨t, List.mem_cons_self, hnode⟩, haliased⟩
        · rcases hrest.added_below u hu with ⟨⟨t', ht', hnode⟩, haliased⟩
          exact ⟨⟨t', List.mem_cons_of_mem t ht', hnode⟩, haliased⟩
      · rcases List.mem_cons.mp ht' with rfl | ht'
        · exact hfirst.closed.declared_mono hclosed
            (hfirst.complete rfl t' (List.mem_singleton_self t') u hu haliased)
        · exact hrest.complete hok t' ht' u hu haliased

/-- The references of a node have been declared once its children have been. -/
theorem HasDeclared.references {result : Except InferenceError Unit × Session} {added : List TypeTree}
    (h : HasDeclared s t.children nodes result added) (hok : result.1 = .ok ()) :
    ∀ u ∈ t.references s, (u.name, u.digest) ∈ result.2.declared := by
  intro u hu
  rcases mem_references hu with ⟨hbelow, haliased⟩
  rcases mem_descendants.mp hbelow with ⟨c, hc, hnode⟩
  exact h.complete hok c hc u hnode haliased

/-- What declaring one tree has done: some nodes below the root have been put behind the
    others, and then the root, if it is wanted and has not been there. -/
structure HasDeclaredTree (s : Strategies) (demanded : Bool) (t : TypeTree)
    (nodes : List (Strategies × TypeTree)) (result : Except InferenceError Unit × Session)
    (below last : List TypeTree) : Prop where
  closed : result.2.IsClosedOver (nodes ++ (below ++ last).map (s, ·))
  below_root : ∀ u ∈ below, u ∈ t.descendants ∧ u.isAliased s = true
  last_eq : last = [] ∨ last = [t] ∧ (demanded = true ∨ t.isAliased s = true)
  complete : result.1 = .ok () → ∀ u ∈ t.nodes, u.isAliased s = true ∨ (demanded = true ∧ u = t) →
    (u.name, u.digest) ∈ result.2.declared

/-- The root after its children. -/
theorem IsClosedOver.after_declare_of_children
    (ih : ∀ c ∈ t.children, ∀ session nodes, IsClosedOver session nodes →
      ∃ added, HasDeclared s [c] nodes (declare s false c session) added)
    (h : session.IsClosedOver nodes) :
    ∃ below last, HasDeclaredTree s demanded t nodes (declare s demanded t session) below last := by
  rcases h.declareAll_of_forall ih with ⟨below, hchildren⟩
  have hbelow : ∀ u ∈ below, u ∈ t.descendants ∧ u.isAliased s = true := by
    intro u hu
    rcases hchildren.added_below u hu with ⟨⟨c, hc, hnode⟩, haliased⟩
    exact ⟨mem_descendants.mpr ⟨c, hc, hnode⟩, haliased⟩
  rw [declare_eq]
  -- The root is reached only if there was no conflict below it.
  rcases hresult : declareAll s t.children session with ⟨_ | _, middle⟩
  · rw [hresult] at hchildren
    refine ⟨below, [], ?_, hbelow, Or.inl rfl, fun hok => nomatch hok⟩
    rw [List.append_nil]
    exact hchildren.closed
  · rw [hresult] at hchildren
    rcases hchildren.closed.after_declareNode (hchildren.references rfl) with
      ⟨last, hclosed, hlast, hroot⟩
    refine ⟨below, last, ?_, hbelow, hlast, fun hok u hu hwanted => ?_⟩
    · rw [List.map_append, ← List.append_assoc]
      exact hclosed
    -- The root is in the table by its own step, the nodes below it by those of the children.
    · by_cases hself : u = t
      · rw [hself] at hwanted ⊢
        exact hroot hok (hwanted.elim Or.inr fun h => Or.inl h.1)
      · have haliased := hwanted.resolve_right fun h => hself h.2
        rcases mem_descendants.mp ((mem_nodes.mp hu).resolve_left hself) with ⟨c, hc, hnode⟩
        exact hchildren.closed.declared_mono hclosed (hchildren.complete rfl c hc u hnode haliased)

theorem HasDeclaredTree.hasDeclared {result : Except InferenceError Unit × Session}
    {below last : List TypeTree} (h : HasDeclaredTree s false t nodes result below last) :
    HasDeclared s [t] nodes result (below ++ last) := by
  refine ⟨h.closed, fun u hu => ?_, fun hok t' ht' u hu haliased => ?_⟩
  · rcases List.mem_append.mp hu with hu | hu
    · rcases h.below_root u hu with ⟨hnode, haliased⟩
      exact ⟨⟨t, List.mem_singleton_self t, mem_nodes.mpr (Or.inr hnode)⟩, haliased⟩
    · rcases h.last_eq with hlast | ⟨hlast, hwanted⟩
      · rw [hlast] at hu
        exact absurd hu List.not_mem_nil
      · rw [hlast] at hu
        rw [List.mem_singleton.mp hu]
        exact ⟨⟨t, List.mem_singleton_self t, mem_nodes_self t⟩, hwanted.resolve_left (by decide)⟩
  · rw [List.mem_singleton.mp ht'] at hu
    exact h.complete hok u hu (Or.inl haliased)

/-- Below a root, declaring keeps sessions closed. -/
theorem IsClosedOver.after_declare_false (t : TypeTree) :
    ∀ session nodes, IsClosedOver session nodes →
      ∃ added, HasDeclared s [t] nodes (declare s false t session) added := by
  induction t using induct_children with
  | node t ih =>
    intro session nodes h
    rcases h.after_declare_of_children ih with ⟨below, last, hdeclared⟩
    exact ⟨below ++ last, hdeclared.hasDeclared⟩

/-- Declaring a tree keeps a session closed. -/
theorem IsClosedOver.after_declare (h : session.IsClosedOver nodes) (demanded : Bool) (t : TypeTree) :
    ∃ below last, HasDeclaredTree s demanded t nodes (declare s demanded t session) below last :=
  h.after_declare_of_children fun c _ => after_declare_false c

/-- What a call may declare: in a tree that it is about, the nodes that get a declaration,
    and the root if it is demanded. -/
def Call.Declares : Call → Strategies × TypeTree → Prop
  | .declare s demanded t, n =>
    n.1 = s ∧ n.2 ∈ t.nodes ∧ (n.2.isAliased s = true ∨ (demanded = true ∧ n.2 = t))
  | _, _ => False

/-- A call keeps a session closed. -/
theorem IsClosedOver.after_perform (h : session.IsClosedOver nodes) (call : Call) :
    ∃ added, (session.perform call).IsClosedOver (nodes ++ added) ∧ ∀ n ∈ added, call.Declares n := by
  have hkept : session.IsClosedOver (nodes ++ []) := by
    rw [List.append_nil]
    exact h
  -- Only declaring touches the table. The other calls add symbols.
  cases call with
  | declare s demanded t =>
    rcases h.after_declare (s := s) demanded t with ⟨below, last, hdeclared⟩
    refine ⟨_, hdeclared.closed, List.forall_mem_map.mpr fun u hu => ⟨rfl, ?_⟩⟩
    rcases List.mem_append.mp hu with hu | hu
    · rcases hdeclared.below_root u hu with ⟨hnode, haliased⟩
      exact ⟨mem_nodes.mpr (Or.inr hnode), Or.inl haliased⟩
    · rcases hdeclared.last_eq with hlast | ⟨hlast, hwanted⟩
      · rw [hlast] at hu
        exact absurd hu List.not_mem_nil
      · rw [hlast] at hu
        rw [List.mem_singleton.mp hu]
        exact ⟨mem_nodes_self t, hwanted.symm.imp_right fun hdemanded => ⟨hdemanded, rfl⟩⟩
  | use s t => exact ⟨[], hkept.of_eq rfl rfl, fun n hn => absurd hn List.not_mem_nil⟩
  | writeOut s t => exact ⟨[], hkept.of_eq rfl rfl, fun n hn => absurd hn List.not_mem_nil⟩
  | writeSelf s t => exact ⟨[], hkept.of_eq rfl rfl, fun n hn => absurd hn List.not_mem_nil⟩
  | require symbol => exact ⟨[], hkept.of_eq rfl rfl, fun n hn => absurd hn List.not_mem_nil⟩

/-- A session is closed after all calls, and each of its nodes is one that a call was to
    declare. -/
theorem exists_isClosedOver_run (calls : List Call) :
    ∃ nodes, (run calls).IsClosedOver nodes ∧ ∀ n ∈ nodes, ∃ call ∈ calls, call.Declares n := by
  -- The calls begin with any closed session, or the induction would not go through.
  have hfold : ∀ (calls : List Call) (session : Session) (nodes : List (Strategies × TypeTree)),
      session.IsClosedOver nodes →
        ∃ added, (calls.foldl perform session).IsClosedOver (nodes ++ added) ∧
          ∀ n ∈ added, ∃ call ∈ calls, call.Declares n := by
    intro calls
    induction calls with
    | nil =>
      intro session nodes h
      exact ⟨[], by rw [List.append_nil]; exact h, fun n hn => absurd hn List.not_mem_nil⟩
    | cons call rest ih =>
      intro session nodes h
      rcases h.after_perform call with ⟨added, hclosed, hdeclares⟩
      rcases ih _ _ hclosed with ⟨addedRest, hclosedRest, hdeclaresRest⟩
      refine ⟨added ++ addedRest, by rw [← List.append_assoc]; exact hclosedRest, fun n hn => ?_⟩
      rcases List.mem_append.mp hn with hn | hn
      · exact ⟨call, List.mem_cons_self, hdeclares n hn⟩
      · rcases hdeclaresRest n hn with ⟨call', hcall', hn'⟩
        exact ⟨call', List.mem_cons_of_mem call hcall', hn'⟩
  rcases hfold calls {} [] .empty with ⟨nodes, hclosed, hdeclares⟩
  exact ⟨nodes, hclosed, hdeclares⟩

end Invariant

end Session

namespace TypeTree

open Session

/-- The session of a tree with names that grow on the way down: the nodes below the root
    that have a declaration come first, and the root is the last one. -/
theorem exists_isClosedOver_render {s : Strategies} {t : TypeTree} {session : Session}
    (hnames : WellNamed s t) (h : t.render s = .ok session) :
    ∃ below : List TypeTree, session.IsClosedOver ((below ++ [t]).map (s, ·)) ∧
      (∀ u ∈ below, u ∈ t.descendants ∧ u.isAliased s = true) ∧
      ∀ u ∈ t.nodes, u.isAliased s = true → (u.name, u.digest) ∈ session.declared := by
  rcases IsClosedOver.empty.after_declare (s := s) true t with ⟨below, last, hdeclared⟩
  rw [render] at h
  -- A session is returned only when no name has been taken before.
  rcases hresult : declare s true t {} with ⟨_ | _, result⟩
  · rw [hresult] at h
    contradiction
  · rw [hresult] at h hdeclared
    rw [Except.ok.injEq] at h
    subst h
    refine ⟨below, ?_, hdeclared.below_root, fun u hu haliased =>
      hdeclared.complete rfl u hu (Or.inl haliased)⟩
    have hroot := hdeclared.complete rfl t (mem_nodes_self t) (Or.inr ⟨rfl, rfl⟩)
    have hclosed := hdeclared.closed
    -- The root comes after everything below it, unless it is there already.
    rcases hdeclared.last_eq with hlast | ⟨hlast, _⟩
    · -- The root is in the table, but no node below it has its name.
      rw [hlast, List.append_nil] at hclosed
      rcases hclosed.mem_declared_iff.mp hroot with ⟨n, hn, hname, _⟩
      rcases List.mem_map.mp hn with ⟨u, hu, rfl⟩
      exact absurd hname (hnames.extends_of_mem_descendants (hdeclared.below_root u hu).1).ne
    · rw [hlast] at hclosed
      exact hclosed

end TypeTree

namespace Session

/-- Sessions are closed and ordered, whatever they are asked for and whichever calls fail.
    The session of one inferred tree has a declaration for each node of the tree that gets
    one, none for a scalar type below the root, and that of the root comes last. -/
theorem closed_and_ordered :
    (∀ calls, ∃ nodes, (run calls).IsClosedOver nodes ∧
      ∀ n ∈ nodes, ∃ call ∈ calls, call.Declares n) ∧
    ∀ (inference : Inference) (name : String) (v : Value) (t : TypeTree) (session : Session),
      inference.infer name v = .ok t → t.render inference.strategies = .ok session →
        ∃ below : List TypeTree,
          session.IsClosedOver ((below ++ [t]).map (inference.strategies, ·)) ∧
          (∀ u ∈ below, u ∈ t.descendants ∧ u.isAliased inference.strategies = true) ∧
          (∀ name v type, TypeTree.scalar name v type ∉ below) ∧
          ∀ u ∈ t.nodes, u.isAliased inference.strategies = true →
            (u.name, u.digest) ∈ session.declared := by
  refine ⟨exists_isClosedOver_run, fun inference name v t session hinfer hrender => ?_⟩
  rcases TypeTree.exists_isClosedOver_render (Inference.wellNamed_of_infer hinfer) hrender with
    ⟨below, hclosed, hbelow, hcomplete⟩
  -- A scalar type is not aliased, so it can only be declared as a root.
  refine ⟨below, hclosed, hbelow, fun name v type hscalar => ?_, hcomplete⟩
  exact absurd (hbelow _ hscalar).2 Bool.false_ne_true

/-- The session of a shop with one order has three declarations. -/
theorem closed_and_ordered_shop :
    ∃ t session, Inference.infer {} "Shop"
        (.mapping [(.str "orders", .sequence .list [.mapping [(.str "id", .int 1)]])]) = .ok t ∧
      t.render {} = .ok session ∧
      session.declared.map (·.1) = ["ShopOrdersDict", "ShopOrders", "Shop"] ∧
      session.blocks.map (·.typeNames) = [["int"], ["ShopOrdersDict"], ["ShopOrders"]] ∧
      ∃ below : List TypeTree, session.IsClosedOver ((below ++ [t]).map (({} : Strategies), ·)) := by
  rcases closed_and_ordered.2 {} "Shop"
    (.mapping [(.str "orders", .sequence .list [.mapping [(.str "id", .int 1)]])]) _ _ rfl rfl with
    ⟨below, hclosed, _⟩
  exact ⟨_, _, rfl, rfl, by decide +kernel, by decide +kernel, below, hclosed⟩

end Session

end TypeSketch
