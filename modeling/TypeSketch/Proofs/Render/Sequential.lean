import TypeSketch.Proofs.Acceptance.Basic
import TypeSketch.Proofs.Names.ChildNames
import TypeSketch.Proofs.Render.Conflicts
import TypeSketch.Proofs.Shape.Canonical
import TypeSketch.Proofs.Tree.Layered

/-!
# Rendering Trees of Sequences

A value without mappings has a tree, and the tree can be rendered if and only if positions
of tuples agree in it. So numbers behind names keep declarations apart, except below the
elements of a tuple of fixed size: two of them can have one name and one digest although
their own elements come in different orders, and then these have been numbered differently.

## Theorems

* `Inference.exists_node`: A value without mappings has a tree.
* `TypeTree.isUnambiguous_iff`: When a tree of sequences is unambiguous.
* `Inference.render_sequential`: When a value without mappings can be rendered.
-/

namespace TypeSketch

namespace Inference

open TypeTree Naming

variable {run : Inference}

/-- A value without mappings has a tree under every identifier, if each kind of sequences is
    registered with a rule that applies to it. -/
theorem exists_node
    (hrules : ∀ kind, ∃ rule elementKind,
      run.registry.get? (.sequence kind) = some (.container rule) ∧
      rule.elementKind? run.strategies.tupleSize kind = some elementKind)
    {v : Value} (hv : v.IsSequential run.registry) {name : String}
    (hname : isIdentifier name = true) : ∃ t, run.node name v = .ok t := by
  induction hv generalizing name with
  | @atom a registered =>
    rcases registered with ⟨type, hget⟩
    exact ⟨.scalar name (.atom a) type, node_of_isNode (.scalar hget)⟩
  | @sequence kind items items_sequential ih =>
    have hchild : ∀ item ∈ items, ∃ t, run.child name (.element item) item = .ok t := by
      intro item hitem
      rw [child_eq_node hname]
      exact ih item hitem (isIdentifier_childName hname _)
    rcases exists_forall₂_of_forall_exists hchild with ⟨trees, htrees⟩
    rcases hrules kind with ⟨rule, elementKind, hget, hkind⟩
    exact ⟨_, node_of_isNode (.sequence hget hkind htrees)⟩

end Inference

namespace TypeTree

variable {s : Strategies} {t : TypeTree}

/-- A tree of sequences is unambiguous if and only if positions agree in it. -/
theorem isUnambiguous_iff (h : IsLayered s t) (hcoherent : Coherent s t) (hwell : WellNamed s t) :
    IsUnambiguous s t ↔ PositionsAgree s t := by
  rw [hwell.isUnambiguous_iff]
  constructor
  · intro hagree p hp _ c hc c' hc' _ u hu u' hu' hua hua' hname
    have hnode : ∀ {c u : TypeTree}, c ∈ p.children → u ∈ c.nodes → u ∈ t.nodes :=
      fun hc hu => mem_nodes_trans hp (mem_nodes_of_child hc hu)
    exact hagree u (hnode hc hu) u' (hnode hc' hu') hua hua' hname
  · intro hagree u hu w hw hua hwa hname
    exact h.digest_eq_of_name_eq hcoherent hagree hu hw hua hwa hname

/-- Where tuples are of any size, all positions agree. -/
theorem positionsAgree_of_anySize (hcoherent : Coherent s t) (hsize : s.tupleSize = .anySize) :
    PositionsAgree s t := by
  intro p hp hfixed
  rcases hcoherent.of_mem_nodes hp with _ | _ | ⟨_, size_eq, _, _⟩
  · contradiction
  · contradiction
  · next kind _ _ _ =>
    unfold isFixedTuple at hfixed
    split at hfixed
    · next heq =>
      cases heq
      rw [← size_eq _ rfl] at hsize
      contradiction
    · contradiction

/-- Two sequences of different digests are only numbered. -/
theorem arrange_sequences {x y : TypeTree} (hx : x.isSequence = true) (hy : y.isSequence = true)
    (hne : x.digest ≠ y.digest) : arrange s .list [x, y] = disambiguate s [x, y] := by
  have hmerge : ∀ {a b : TypeTree}, a.isSequence = true → a.merge? s.similarity b = none := by
    intro a b ha
    cases a with
    | sequence _ _ _ _ _ _ => rfl
    | scalar _ _ _ => contradiction
    | mapping _ _ _ _ _ _ => contradiction
  have hdrop : dropRepeated [x, y] = [x, y] :=
    dropSeen_eq_self (by simp [hne]) fun _ _ => List.not_mem_nil
  have hsimilar : mergeSimilar s.similarity [x, y] = [x, y] :=
    mergeSimilar_eq_self (by simp [hne]) (by simp [hmerge hx, hmerge hy])
  rw [arrange, hdrop, hsimilar]
  exact fun h => ElementKind.noConfusion h

/-- Of two sequences with one name and two digests, the first one keeps the name. -/
theorem arrange_pair {x y : TypeTree} (hx : x.isSequence = true) (hy : y.isSequence = true)
    (hxa : x.isAliased s = true) (hya : y.isAliased s = true) (hname : x.name = y.name)
    (hne : x.digest ≠ y.digest) : arrange s .list [x, y] = [x, y.withOrdinal 1] := by
  rw [arrange_sequences hx hy hne]
  simp [disambiguate, disambiguateFrom, ordinal, withOrdinal,
    List.idxOf?_cons, hxa, hya, hname, hne]

/-- Two positions with one name and one digest stay as they are. -/
theorem arrange_twins {x y : TypeTree} (hdigest : x.digest = y.digest) (hname : x.name = y.name) :
    arrange s (.tuple .fixed) [x, y] = [x, y] := by
  by_cases hx : x.isAliased s = true <;> by_cases hy : y.isAliased s = true <;>
    simp [arrange, disambiguate, disambiguateFrom, ordinal, List.idxOf?_cons, hx, hy, hname, hdigest]

end TypeTree

namespace Inference

open TypeTree

/-- A value without mappings has a tree under every identifier, and the tree can be rendered
    if and only if positions of tuples agree in it. -/
theorem render_sequential {types : List (String × ScalarType)} {s : Strategies} {name : String}
    {v : Value} (hv : v.IsSequential (Registry.extended types))
    (hname : Naming.isIdentifier name = true) :
    ∃ t, infer { strategies := s, registry := Registry.extended types } name v = .ok t ∧
      ((∃ session, t.render s = .ok session) ↔ PositionsAgree s t) ∧
      (s.tupleSize = .anySize → ∃ session, t.render s = .ok session) := by
  have hrules : ∀ kind, ∃ rule elementKind,
      (Registry.extended types).get? (.sequence kind) = some (.container rule) ∧
        rule.elementKind? s.tupleSize kind = some elementKind := by
    intro kind
    rw [Registry.get?_extended_of_container fun _ => ValueKind.noConfusion]
    cases kind <;> exact ⟨_, _, rfl, rfl⟩
  rcases @exists_node { strategies := s, registry := Registry.extended types } hrules v hv name
    hname with ⟨t, hnode⟩
  have hinfer := infer_eq_ok_iff.mpr ⟨hname, hnode⟩
  have hcoherent := coherent_of_node hnode
  -- In a tree of sequences two nodes of one name stand at the same position of two siblings.
  have hiff : (∃ session, t.render s = .ok session) ↔ PositionsAgree s t := by
    rw [render_eq_ok_iff]
    exact isUnambiguous_iff (isLayered_of_node hv hnode) hcoherent (wellNamed_of_infer hinfer)
  exact ⟨t, hinfer, hiff, fun hsize => hiff.mpr (positionsAgree_of_anySize hcoherent hsize)⟩

/-- Two lists in a tuple, of the same two elements in two orders. -/
def crossed (v w : Value) : Value :=
  .sequence .tuple [.sequence .list [v, w], .sequence .list [w, v]]

theorem isSequential_crossed {r : Registry} {v w : Value} (hv : v.IsSequential r)
    (hw : w.IsSequential r) :
    (crossed v w).IsSequential r := by
  have htwo : ∀ {kind : SequenceKind} {a b : Value}, a.IsSequential r → b.IsSequential r →
      (Value.sequence kind [a, b]).IsSequential r := fun ha hb =>
    .sequence (List.forall_mem_cons.mpr ⟨ha, List.forall_mem_singleton.mpr hb⟩)
  exact htwo (htwo hv hw) (htwo hw hv)

/-- If the two elements have one name and two digests, the first of each list keeps the name,
    so it stands for both digests. -/
theorem exists_not_render_crossed {types : List (String × ScalarType)} {s : Strategies}
    {name : String} {v w : Value} {x y : TypeTree} (hname : Naming.isIdentifier name = true)
    (hfixed : s.tupleSize = .fixed)
    (hx : child { strategies := s, registry := Registry.extended types }
      (name ++ "List") (.element v) v = .ok x)
    (hy : child { strategies := s, registry := Registry.extended types }
      (name ++ "List") (.element w) w = .ok y)
    (hxs : x.isSequence = true) (hys : y.isSequence = true) (hxa : x.isAliased s = true)
    (hya : y.isAliased s = true) (hsame : x.name = y.name) (hne : x.digest ≠ y.digest) :
    ∃ t, infer { strategies := s, registry := Registry.extended types } name (crossed v w) = .ok t ∧
      ¬∃ session, t.render s = .ok session := by
  have hget : ∀ kind, (Registry.extended types).get? (.sequence kind) =
      Registry.standard.get? (.sequence kind) := fun kind =>
    Registry.get?_extended_of_container fun _ => ValueKind.noConfusion
  -- The tree of a list of the two, in either order.
  have hlist : ∀ {a b : Value} {c d : TypeTree},
      child { strategies := s, registry := Registry.extended types }
        (name ++ "List") (.element a) a = .ok c →
      child { strategies := s, registry := Registry.extended types }
        (name ++ "List") (.element b) b = .ok d →
      child { strategies := s, registry := Registry.extended types }
        name (.element (.sequence .list [a, b]))
        (.sequence .list [a, b]) = .ok (.ofElements (name ++ "List") (.sequence .list [a, b]) .list
          (arrange s .list [c, d])) := by
    intro a b c d hc hd
    rw [child_eq_node hname, SequenceKind.childName_sequence name .list [a, b]]
    exact node_of_isNode (.sequence (hget .list) rfl (.cons hc (.cons hd .nil)))
  have hinfer := infer_eq_ok_iff.mpr ⟨hname, @node_of_isNode _ name _ _ (.sequence (hget .tuple)
    (by rw [hfixed]; rfl) (.cons (hlist hx hy) (.cons (hlist hy hx) .nil)))⟩
  refine ⟨_, hinfer, fun hrender => hne ?_⟩
  -- The lists number their elements in the order in which they stand, but have the same shape.
  have hxy := arrange_pair hxs hys hxa hya hsame hne
  have hyx := arrange_pair hys hxs hya hxa hsame.symm hne.symm
  have hshape : (ofElements (name ++ "List") (.sequence .list [v, w]) .list
      (arrange s .list [x, y])).shape =
      (ofElements (name ++ "List") (.sequence .list [w, v]) .list
        (arrange s .list [y, x])).shape := by
    rw [hxy, hyx]
    refine congrArg (Shape.node .list) (unorderedShapes_congr fun a => ?_)
    simp only [List.map_cons, List.map_nil, List.mem_cons, List.not_mem_nil, or_false,
      shape_withOrdinal]
    exact or_comm
  dsimp only at hrender
  rw [arrange_twins (congrArg Shape.digest hshape) rfl] at hrender
  -- The first elements of the two lists are nodes of the tree.
  refine render_eq_ok_iff.mp hrender x y ⟨?_, Or.inr hxa⟩ ⟨?_, Or.inr hya⟩ hsame
  · refine mem_nodes_of_child (List.mem_cons_self) (mem_nodes_of_child ?_ (mem_nodes_self x))
    rw [hxy]
    exact List.mem_cons_self
  · refine mem_nodes_of_child (List.mem_cons_of_mem _ List.mem_cons_self)
      (mem_nodes_of_child ?_ (mem_nodes_self y))
    rw [hyx]
    exact List.mem_cons_self

/-- The tree of a tuple of one atom. -/
theorem child_single {types : List (String × ScalarType)} {s : Strategies} {parent : String}
    {a : Atom} {type : ScalarType} (hparent : Naming.isIdentifier parent = true)
    (hget : (Registry.extended types).get? (.atom a.kind) = some (.scalar type)) :
    child { strategies := s, registry := Registry.extended types } parent
        (.element (.sequence .tuple [.atom a])) (.sequence .tuple [.atom a]) =
      .ok (.ofElements (parent ++ "Tuple") (.sequence .tuple [.atom a]) (.tuple s.tupleSize)
        (arrange s (.tuple s.tupleSize)
          [.scalar (Naming.childName (parent ++ "Tuple") (.element (.atom a)))
            (.atom a) type])) := by
  rw [child_eq_node hparent, SequenceKind.childName_sequence parent .tuple [.atom a]]
  refine node_of_isNode
      (.sequence (Registry.get?_extended_of_container fun _ => ValueKind.noConfusion) rfl
    (.cons ?_ .nil))
  exact child_eq_ok_iff.mpr ⟨node_of_isNode (.scalar hget), fun h => absurd h Bool.false_ne_true⟩

/-- A tuple of one number and one of one text, in two lists. -/
def crossedSingles : Value := crossed (.sequence .tuple [.int 1]) (.sequence .tuple [.str "a"])

theorem isSequential_crossedSingles : crossedSingles.IsSequential (Registry.extended []) := by
  have hsingle : ∀ {a : Atom} {type : ScalarType},
      (Registry.extended []).get? (.atom a.kind) = some (.scalar type) →
        (Value.sequence .tuple [.atom a]).IsSequential (Registry.extended []) := fun hget =>
    .sequence (List.forall_mem_singleton.mpr (.atom ⟨_, hget⟩))
  have hint : (Registry.extended []).get? (.atom (Atom.int 1).kind) =
      some (.scalar ⟨"int", none⟩) := rfl
  have hstr : (Registry.extended []).get? (.atom (Atom.str "a").kind) =
      some (.scalar ⟨"str", none⟩) := rfl
  exact isSequential_crossed (hsingle hint) (hsingle hstr)

/-- With tuples of any size the two lists become one element. -/
theorem render_sequential_any_size :
    ∃ t, infer { strategies := { tupleSize := .anySize }, registry := Registry.extended [] }
        "Example" crossedSingles = .ok t ∧
      ∃ session, t.render { tupleSize := .anySize } = .ok session := by
  rcases @render_sequential [] { tupleSize := .anySize } "Example" _ isSequential_crossedSingles
    (by decide +kernel) with ⟨t, ht, _, hrender⟩
  exact ⟨t, ht, hrender rfl⟩

/-- With tuples of fixed size the two lists stay apart, and there is no module. -/
theorem render_sequential_fixed :
    crossedSingles.IsSequential (Registry.extended []) ∧ Naming.isIdentifier "Example" = true ∧
      ∃ t, infer { registry := Registry.extended [] } "Example" crossedSingles = .ok t ∧
        ¬∃ session, t.render {} = .ok session := by
  have hlist : Naming.isIdentifier ("Example" ++ "List") = true := by decide +kernel
  have hint : (Registry.extended []).get? (.atom (Atom.int 1).kind) =
      some (.scalar ⟨"int", none⟩) := rfl
  have hstr : (Registry.extended []).get? (.atom (Atom.str "a").kind) =
      some (.scalar ⟨"str", none⟩) := rfl
  refine ⟨isSequential_crossedSingles, by decide +kernel, ?_⟩
  exact exists_not_render_crossed (by decide +kernel) rfl (child_single hlist hint)
    (child_single hlist hstr) rfl rfl (by decide) (by decide) rfl (by decide +kernel)

end Inference

end TypeSketch
