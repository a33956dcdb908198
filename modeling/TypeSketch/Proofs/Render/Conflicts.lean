import Mathlib.Data.List.Nodup
import TypeSketch.Proofs.Names.WellNamed
import TypeSketch.Proofs.Render.Sessions

/-!
# Conflicts

When a tree can be rendered: if and only if any two of its nodes that get a declaration
under one name have one digest. A name that stands for two digests is the only thing that
rendering fails for, so it is enough that all names come from one assignment of digests to
names. Conversely, all nodes with a declaration are in the table when rendering has come
to its end, and no name is in it twice.

## Main definitions

* `TypeTree.IsDeclared`: The nodes of a tree that get a declaration.
* `TypeTree.IsUnambiguous`: Trees in which a name stands for one digest.

## Theorems

* `Session.declare_eq_ok`: Declaring does not fail if the names are assigned.
* `TypeTree.render_eq_ok_iff`: When a tree can be rendered.
* `TypeTree.WellNamed.isUnambiguous_iff`: The root is told apart by its name.
-/

namespace TypeSketch

namespace Session

open TypeTree

variable {s : Strategies} {demanded : Bool} {t : TypeTree} {session : Session}
  {assigned : String → UInt64 → Prop}

/-- The names in the table of a session stand for digests that they are assigned. -/
def Respects (session : Session) (assigned : String → UInt64 → Prop) : Prop :=
  ∀ entry ∈ session.declared, assigned entry.1 entry.2

/-- The result is no failure, and the names in the table are assigned as before. -/
def IsOk (result : Except InferenceError Unit × Session) (assigned : String → UInt64 → Prop) :
    Prop :=
  result.1 = .ok () ∧ result.2.Respects assigned

theorem declareAll_eq_ok {trees : List TypeTree}
    (ih : ∀ t ∈ trees, ∀ session : Session, session.Respects assigned →
      IsOk (declare s false t session) assigned)
    (h : session.Respects assigned) : IsOk (declareAll s trees session) assigned := by
  induction trees generalizing session with
  | nil => exact ⟨rfl, h⟩
  | cons t rest ihrest =>
    have hfirst := ih t List.mem_cons_self session h
    rw [declareAll]
    rcases hresult : declare s false t session with ⟨_ | _, middle⟩ <;> rw [hresult] at hfirst
    · cases hfirst.1
    · exact ihrest (fun t ht => ih t (List.mem_cons_of_mem _ ht)) hfirst.2

section Declare

variable (hunique : ∀ name a b, assigned name a → assigned name b → a = b)

include hunique

theorem declareNode_eq_ok (h : session.Respects assigned)
    (ht : demanded = true ∨ t.isAliased s = true → assigned t.name t.digest) :
    IsOk (declareNode s demanded t session) assigned := by
  -- A node that is asked for either has its digest under its name already or is new. One that is
  -- not asked for changes nothing.
  by_cases hwanted : demanded = true ∨ t.isAliased s = true
  · rcases declareNode_cases s demanded t session with ⟨heq, _⟩ | ⟨_, digest, hdigest, hne⟩ |
      ⟨⟨symbols, heq⟩, _, _⟩
    · rw [heq]
      exact ⟨rfl, h⟩
    · -- The name would stand for another digest than the one that it is assigned.
      have hentry := h (t.name, digest) (mem_of_lookup_eq_some hdigest)
      exact absurd (hunique t.name digest t.digest hentry (ht hwanted)) hne
    · rw [heq]
      refine ⟨rfl, fun entry hentry => ?_⟩
      rcases List.mem_append.mp hentry with hentry | hentry
      · exact h entry hentry
      · rw [List.mem_singleton.mp hentry]
        exact ht hwanted
  · rw [not_or, Bool.not_eq_true, Bool.not_eq_true] at hwanted
    have hskip : declareNode s demanded t session = (.ok (), session) := by
      rw [declareNode, hwanted.1, hwanted.2]
      rfl
    rw [hskip]
    exact ⟨rfl, h⟩

/-- Declaring a tree does not fail if its names are assigned to the digests of its nodes. -/
theorem declare_eq_ok (h : session.Respects assigned)
    (ht : ∀ u ∈ t.nodes, (demanded = true ∧ u = t) ∨ u.isAliased s = true →
      assigned u.name u.digest) :
    IsOk (declare s demanded t session) assigned := by
  induction t using induct_children generalizing demanded session with
  | node t ih =>
    have hchildren : IsOk (declareAll s t.children session) assigned := by
      refine declareAll_eq_ok
        (fun c hc session hsession => ih c hc hsession fun u hu hwanted => ?_) h
      exact ht u (mem_nodes_of_child hc hu) (Or.inr (hwanted.resolve_left fun h => nomatch h.1))
    rw [declare_eq]
    rcases hresult : declareAll s t.children session with
      ⟨_ | _, middle⟩ <;> rw [hresult] at hchildren
    · exact nomatch hchildren.1
    · exact declareNode_eq_ok hunique hchildren.2 fun hwanted =>
        ht t (mem_nodes_self t) (hwanted.imp_left fun hdemanded => ⟨hdemanded, rfl⟩)

end Declare

end Session

namespace TypeTree

open Session

variable {s : Strategies} {t : TypeTree}

/-- The node of the tree gets a declaration: it is the root, or it has one of its own. -/
def IsDeclared (s : Strategies) (t u : TypeTree) : Prop :=
  u ∈ t.nodes ∧ (u = t ∨ u.isAliased s = true)

/-- Nodes of the tree that are declared under one name have one digest. -/
def IsUnambiguous (s : Strategies) (t : TypeTree) : Prop :=
  ∀ u w, IsDeclared s t u → IsDeclared s t w → u.name = w.name → u.digest = w.digest

/-- A tree can be rendered if and only if no name stands for two digests in it. -/
theorem render_eq_ok_iff : (∃ session, t.render s = .ok session) ↔ IsUnambiguous s t := by
  constructor
  · rintro ⟨session, hrender⟩ u w hu hw hname
    rcases IsClosedOver.empty.after_declare (s := s) true t with ⟨below, last, hdeclared⟩
    rw [render] at hrender
    rcases hresult : declare s true t {} with ⟨_ | _, result⟩ <;> rw [hresult] at hrender hdeclared
    · contradiction
    -- Every node with a declaration is in the session with its digest, and names are there only
    -- once.
    · have hentry : ∀ u, IsDeclared s t u → (u.name, u.digest) ∈ result.declared := fun u hu =>
        hdeclared.complete rfl u hu.1 (hu.2.symm.imp_right fun heq => ⟨rfl, heq⟩)
      have hwentry := hentry w hw
      rw [← hname] at hwentry
      exact (Prod.ext_iff.mp (List.inj_on_of_nodup_map hdeclared.closed.names_nodup
        (hentry u hu) hwentry rfl)).2
  · intro h
    -- What a name may stand for is what it stands for anywhere in the tree, and that is one digest.
    have hok := @declare_eq_ok s true t {}
      (fun name digest => ∃ u, IsDeclared s t u ∧ u.name = name ∧ u.digest = digest)
      (by
        rintro name a b ⟨u, hu, rfl, rfl⟩ ⟨w, hw, hname, rfl⟩
        exact h u w hu hw hname.symm)
      (fun entry hentry => absurd hentry List.not_mem_nil)
      (fun u hu hwanted => ⟨u, ⟨hu, hwanted.imp_left And.right⟩, rfl, rfl⟩)
    rw [render]
    rcases hresult : declare s true t {} with ⟨_ | _, result⟩ <;> rw [hresult] at hok
    · cases hok.1
    · exact ⟨result, rfl⟩

/-- A well named tree is unambiguous if and only if nodes that have a declaration of their own
    and one name have one digest. -/
theorem WellNamed.isUnambiguous_iff (h : WellNamed s t) :
    IsUnambiguous s t ↔ ∀ u ∈ t.nodes, ∀ w ∈ t.nodes, u.isAliased s = true → w.isAliased s = true →
      u.name = w.name → u.digest = w.digest := by
  constructor
  · intro hunambiguous u hu w hw hua hwa hname
    exact hunambiguous u w ⟨hu, Or.inr hua⟩ ⟨hw, Or.inr hwa⟩ hname
  · intro hagree u w hu hw hname
    rcases hu with ⟨hu, hud⟩
    rcases hw with ⟨hw, hwd⟩
    -- The name of the root is that of no node below it.
    have hroot : ∀ {w : TypeTree}, w ∈ t.nodes → w.name = t.name → w = t := fun hw heq =>
      (mem_nodes.mp hw).resolve_right fun hbelow => (h.extends_of_mem_descendants hbelow).ne heq
    rcases hud with rfl | hua
    · rw [hroot hw hname.symm]
    · rcases hwd with rfl | hwa
      · rw [hroot hu hname]
      · exact hagree u hu w hw hua hwa hname

end TypeTree

end TypeSketch
