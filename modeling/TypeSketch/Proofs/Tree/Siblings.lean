import TypeSketch.Proofs.Lists.Related
import TypeSketch.Proofs.Tree.Merging
import TypeSketch.Tree.Siblings

/-!
# What Happens to Siblings

The passes over the elements of a sequence, each by what it does to one element: one of
two elements with one digest is dropped, an element is merged into a kept one or kept
behind them, and an element is renamed or left as it is.

Two things are derived from that for the passes together. What holds of all elements,
and is kept by a merge and by a number behind a name, holds of the arranged elements.
And each element is covered by an arranged one, for every relation of covering that holds
between a record and its merges, between an element and itself with a number, and between
elements of one digest where they are compared: before anything is merged and after that.

## Main definitions

* `TypeTree.IsNumbered`: An element before and after it may have been numbered.
* `TypeTree.gathered`: The elements once similar records are merged.

## Theorems

* `TypeTree.mem_of_mem_dropSeen`, `TypeTree.exists_mem_dropSeen`: What is dropped.
* `TypeTree.place_cases`: Where an element goes.
* `TypeTree.forall₂_disambiguate`, `TypeTree.map_shape_disambiguate`,
  `TypeTree.map_digest_disambiguate`: Numbering element by element.
* `TypeTree.arrange_of_ne_fixed`: The passes together.
* `TypeTree.forall_mem_arrange`: What holds of all elements stays so.
* `TypeTree.exists_covering_arrange`: Each element is covered.
-/

namespace TypeSketch

namespace TypeTree

theorem mem_of_mem_dropSeen {seen : List UInt64} {trees : List TypeTree} {t : TypeTree}
    (h : t ∈ dropSeen seen trees) : t ∈ trees := by
  induction trees generalizing seen with
  | nil => exact h
  | cons first rest ih =>
    rw [dropSeen] at h
    split at h
    · exact List.mem_cons_of_mem first (ih h)
    · rcases List.mem_cons.mp h with rfl | h
      · exact List.mem_cons_self
      · exact List.mem_cons_of_mem first (ih h)

/-- A tree is dropped only if its digest has been seen or a tree of its digest is kept. -/
theorem exists_mem_dropSeen {seen : List UInt64} {trees : List TypeTree} {t : TypeTree}
    (h : t ∈ trees) : t.digest ∈ seen ∨ ∃ u ∈ dropSeen seen trees, u.digest = t.digest := by
  induction trees generalizing seen with
  | nil => exact absurd h List.not_mem_nil
  | cons first rest ih =>
    rw [dropSeen]
    -- A node that is left out has been seen, and one that stays has been seen from then on.
    split
    · next hseen =>
      rcases List.mem_cons.mp h with rfl | hmem
      · exact Or.inl (List.contains_iff_mem.mp hseen)
      · exact ih hmem
    · rcases List.mem_cons.mp h with rfl | hmem
      · exact Or.inr ⟨t, List.mem_cons_self, rfl⟩
      · have hrest : t.digest ∈ first.digest :: seen ∨
            ∃ u ∈ dropSeen (first.digest :: seen) rest, u.digest = t.digest := ih hmem
        rcases hrest with hseen | ⟨u, hu, heq⟩
        · rcases List.mem_cons.mp hseen with heq | hseen
          · exact Or.inr ⟨first, List.mem_cons_self, heq.symm⟩
          · exact Or.inl hseen
        · exact Or.inr ⟨u, List.mem_cons_of_mem first hu, heq⟩

theorem exists_mem_dropRepeated {trees : List TypeTree} {t : TypeTree} (h : t ∈ trees) :
    ∃ u ∈ dropRepeated trees, u.digest = t.digest :=
  (exists_mem_dropSeen h).resolve_left List.not_mem_nil

/-- An element is merged into the first kept one that takes it, or goes behind them. -/
theorem place_cases (similarity : Nat) (t : TypeTree) (kept : List TypeTree) :
    (∃ before target after merged, kept = before ++ target :: after ∧
      (∀ u ∈ before, u.merge? similarity t = none) ∧ IsMerge similarity target t merged ∧
      place similarity t kept = before ++ merged :: after) ∨
    ((∀ u ∈ kept, u.merge? similarity t = none) ∧ place similarity t kept = kept ++ [t]) := by
  -- The element is offered to the kept ones from the front.
  induction kept with
  | nil => exact Or.inr ⟨fun u hu => absurd hu List.not_mem_nil, rfl⟩
  | cons target rest ih =>
    cases hm : target.merge? similarity t with
    | some merged =>
      refine Or.inl ⟨[], target, rest, merged, rfl, fun u hu => absurd hu List.not_mem_nil,
        merge?_eq_some_iff.mp hm, ?_⟩
      rw [place, hm]
      rfl
    | none =>
      have hplace : place similarity t (target :: rest) = target :: place similarity t rest := by
        rw [place, hm]
      -- The first one does not take the element, so it goes to the ones behind.
      rcases ih with ⟨before, u, after, merged, hkept, hbefore, hmerge, hresult⟩ | ⟨hnone, hresult⟩
      · refine Or.inl ⟨target :: before, u, after, merged, by rw [hkept]; rfl, ?_, hmerge, ?_⟩
        · intro w hw
          rcases List.mem_cons.mp hw with rfl | hw
          · exact hm
          · exact hbefore w hw
        · rw [hplace, hresult]
          rfl
      · refine Or.inr ⟨?_, by rw [hplace, hresult]; rfl⟩
        intro w hw
        rcases List.mem_cons.mp hw with rfl | hw
        · exact hm
        · exact hnone w hw

/-- An element before numbering, and after it: as it was, or with a number behind its
    name. Only what gets a declaration is numbered. -/
def IsNumbered (s : Strategies) (t u : TypeTree) : Prop :=
  u = t ∨ t.isAliased s = true ∧ ∃ i, u = t.rename (t.name ++ toString (i + 1))

theorem IsNumbered.shape_eq {s : Strategies} {t u : TypeTree} (h : IsNumbered s t u) :
    u.shape = t.shape := by
  rcases h with rfl | ⟨_, i, rfl⟩
  · rfl
  · rw [shape_rename]

theorem forall₂_disambiguateFrom (s : Strategies) (table : NamedDigests) (trees : List TypeTree) :
    List.Forall₂ (IsNumbered s) trees (disambiguateFrom s table trees) := by
  induction trees generalizing table with
  | nil => exact List.Forall₂.nil
  | cons t rest ih =>
    rw [disambiguateFrom]
    split
    · next haliased =>
      refine List.Forall₂.cons ?_ (ih _)
      split
      · exact Or.inl rfl
      · exact Or.inr ⟨haliased, _, rfl⟩
    · exact List.Forall₂.cons (Or.inl rfl) (ih table)

theorem forall₂_disambiguate (s : Strategies) (trees : List TypeTree) :
    List.Forall₂ (IsNumbered s) trees (disambiguate s trees) :=
  forall₂_disambiguateFrom s [] trees

theorem map_shape_disambiguate (s : Strategies) (trees : List TypeTree) :
    (disambiguate s trees).map shape = trees.map shape :=
  map_eq_of_forall₂ ((forall₂_disambiguate s trees).imp fun _ _ h => h.shape_eq)

/-- Trees of the same shapes have the same digests. -/
theorem map_digest_of_map_shape {trees others : List TypeTree}
    (h : trees.map shape = others.map shape) : trees.map digest = others.map digest := by
  have hdigest := congrArg (List.map Shape.digest) h
  rwa [List.map_map, List.map_map] at hdigest

theorem map_digest_disambiguate (s : Strategies) (trees : List TypeTree) :
    (disambiguate s trees).map digest = trees.map digest :=
  map_digest_of_map_shape (map_shape_disambiguate s trees)

/-- All passes, unless every position keeps its element. -/
theorem arrange_of_ne_fixed {s : Strategies} {kind : ElementKind} {trees : List TypeTree}
    (h : kind ≠ .tuple .fixed) :
    arrange s kind trees = disambiguate s (mergeSimilar s.similarity (dropRepeated trees)) := by
  unfold arrange
  split
  · contradiction
  · rfl

/-- The elements of a sequence of this kind once similar records are merged. Unless every
    position keeps its element, their digests are compared once more. -/
def gathered (s : Strategies) (kind : ElementKind) (trees : List TypeTree) : List TypeTree :=
  match kind with
  | .tuple .fixed => trees
  | _ => (dropRepeated trees).foldl (fun kept t => place s.similarity t kept) []

theorem gathered_of_ne_fixed {s : Strategies} {kind : ElementKind} {trees : List TypeTree}
    (h : kind ≠ .tuple .fixed) :
    gathered s kind trees =
      (dropRepeated trees).foldl (fun kept t => place s.similarity t kept) [] := by
  unfold gathered
  split
  · contradiction
  · rfl

section Invariant

variable {P : TypeTree → Prop} {similarity : Nat}
  (hmerge : ∀ a b m, P a → P b → IsMerge similarity a b m → P m)

include hmerge

theorem forall_mem_place {t : TypeTree} {kept : List TypeTree} (ht : P t)
    (hkept : ∀ u ∈ kept, P u) : ∀ u ∈ place similarity t kept, P u := by
  intro u hu
  -- Only the merged node is new, or the element itself at the end.
  rcases place_cases similarity t kept with
    ⟨before, target, after, merged, rfl, _, hm, hresult⟩ | ⟨_, hresult⟩
  · rw [hresult] at hu
    rcases List.mem_append.mp hu with hu | hu
    · exact hkept u (List.mem_append_left _ hu)
    · rcases List.mem_cons.mp hu with rfl | hu
      · exact hmerge target t u (hkept target (by simp)) ht hm
      · exact hkept u (List.mem_append_right _ (List.mem_cons_of_mem target hu))
  · rw [hresult] at hu
    rcases List.mem_append.mp hu with hu | hu
    · exact hkept u hu
    · rw [List.mem_singleton.mp hu]
      exact ht

theorem forall_mem_foldl_place {trees kept : List TypeTree} (htrees : ∀ t ∈ trees, P t)
    (hkept : ∀ u ∈ kept, P u) :
    ∀ u ∈ trees.foldl (fun kept t => place similarity t kept) kept, P u := by
  induction trees generalizing kept with
  | nil => exact hkept
  | cons t rest ih =>
    exact ih (fun u hu => htrees u (List.mem_cons_of_mem t hu))
      (forall_mem_place hmerge (htrees t List.mem_cons_self) hkept)

theorem forall_mem_mergeSimilar {trees : List TypeTree} (htrees : ∀ t ∈ trees, P t) :
    ∀ u ∈ mergeSimilar similarity trees, P u :=
  fun u hu => forall_mem_foldl_place hmerge htrees (fun _ h => absurd h List.not_mem_nil) u
    (mem_of_mem_dropSeen hu)

end Invariant

/-- What holds of all elements and is kept by merging holds once similar records are merged. -/
theorem forall_mem_gathered {P : TypeTree → Prop} {s : Strategies} {kind : ElementKind}
    {trees : List TypeTree} (hmerge : ∀ a b m, P a → P b → IsMerge s.similarity a b m → P m)
    (htrees : ∀ t ∈ trees, P t) : ∀ u ∈ gathered s kind trees, P u := by
  by_cases hfixed : kind = .tuple .fixed
  · rw [hfixed]
    exact htrees
  · rw [gathered_of_ne_fixed hfixed]
    exact forall_mem_foldl_place hmerge (fun t ht => htrees t (mem_of_mem_dropSeen ht))
      fun _ hu => absurd hu List.not_mem_nil

/-- What holds of all elements and is kept by merging and numbering holds of the arranged
    elements. -/
theorem forall_mem_arrange {P : TypeTree → Prop} {s : Strategies} {kind : ElementKind}
    {trees : List TypeTree} (hmerge : ∀ a b m, P a → P b → IsMerge s.similarity a b m → P m)
    (hnumber : ∀ t i, P t → t.isAliased s = true → P (t.rename (t.name ++ toString (i + 1))))
    (htrees : ∀ t ∈ trees, P t) : ∀ u ∈ arrange s kind trees, P u := by
  have hnumbered : ∀ ts : List TypeTree, (∀ t ∈ ts, P t) → ∀ u ∈ disambiguate s ts, P u := by
    intro ts hts u hu
    rcases exists_mem_left_of_forall₂ (forall₂_disambiguate s ts) hu with ⟨t, ht, rfl | ⟨ha, i, rfl⟩⟩
    · exact hts _ ht
    · exact hnumber t i (hts t ht) ha
  have hmerged : ∀ u ∈ disambiguate s (mergeSimilar s.similarity (dropRepeated trees)), P u :=
    hnumbered _ (forall_mem_mergeSimilar hmerge fun t ht => htrees t (mem_of_mem_dropSeen ht))
  unfold arrange
  split
  · exact hnumbered trees htrees
  · exact hmerged

section Covering

variable {P : TypeTree → Prop} {R : TypeTree → TypeTree → Prop} {similarity : Nat}
  (hmerge : ∀ a b m, P a → P b → IsMerge similarity a b m → P m)
  (hleft : ∀ a b m, P a → P b → IsMerge similarity a b m → R a m)
  (hright : ∀ a b m, P a → P b → IsMerge similarity a b m → R b m)
  (hrefl : ∀ t, R t t) (htrans : ∀ t u w, R t u → R u w → R t w)

include hleft hright hrefl

/-- Every kept element and the new one are covered after the new one has its place. -/
theorem exists_covering_place {t u : TypeTree} {kept : List TypeTree} (ht : P t)
    (hkept : ∀ u ∈ kept, P u) (hu : u = t ∨ u ∈ kept) :
    ∃ w ∈ place similarity t kept, R u w := by
  -- The merged node covers both of which it is made.
  rcases place_cases similarity t kept with
    ⟨before, target, after, merged, rfl, _, hm, hresult⟩ | ⟨_, hresult⟩
  · rw [hresult]
    have htarget : P target := hkept target (by simp)
    have hmem : merged ∈ before ++ merged :: after := by simp
    rcases hu with rfl | hu
    · exact ⟨merged, hmem, hright target u merged htarget ht hm⟩
    · rcases List.mem_append.mp hu with hu | hu
      · exact ⟨u, List.mem_append_left _ hu, hrefl u⟩
      · rcases List.mem_cons.mp hu with rfl | hu
        · exact ⟨merged, hmem, hleft u t merged htarget ht hm⟩
        · exact ⟨u, List.mem_append_right _ (List.mem_cons_of_mem merged hu), hrefl u⟩
  · rw [hresult]
    rcases hu with rfl | hu
    · exact ⟨u, by simp, hrefl u⟩
    · exact ⟨u, List.mem_append_left _ hu, hrefl u⟩

include hmerge htrans

theorem exists_covering_foldl_place {trees kept : List TypeTree} (htrees : ∀ t ∈ trees, P t)
    (hkept : ∀ u ∈ kept, P u) {u : TypeTree} (hu : u ∈ trees ∨ u ∈ kept) :
    ∃ w ∈ trees.foldl (fun kept t => place similarity t kept) kept, R u w := by
  induction trees generalizing kept u with
  | nil => exact ⟨u, hu.resolve_left List.not_mem_nil, hrefl u⟩
  | cons t rest ih =>
    have ht := htrees t List.mem_cons_self
    have hrest : ∀ u ∈ rest, P u := fun u hu => htrees u (List.mem_cons_of_mem t hu)
    have hplaced : ∀ w ∈ place similarity t kept, P w := forall_mem_place hmerge ht hkept
    -- An element that is still to come waits; one that is there is covered from now on.
    by_cases hmem : u ∈ rest
    · exact ih hrest hplaced (Or.inl hmem)
    · have hnow : u = t ∨ u ∈ kept := by
        rcases hu with hu | hu
        · exact Or.inl ((List.mem_cons.mp hu).resolve_right hmem)
        · exact Or.inr hu
      rcases exists_covering_place hleft hright hrefl ht hkept hnow with
        ⟨w, hw, huw⟩
      rcases ih hrest hplaced (Or.inr hw) with ⟨x, hx, hwx⟩
      exact ⟨x, hx, htrans u w x huw hwx⟩

end Covering

/-- Each element is covered by an arranged one, if elements of one digest cover each other
    wherever digests are compared, a number behind a name does not matter, and a merge covers
    both of its records. -/
theorem exists_covering_arrange {P : TypeTree → Prop} {R : TypeTree → TypeTree → Prop}
    {s : Strategies} {kind : ElementKind} {trees : List TypeTree}
    (hmerge : ∀ a b m, P a → P b → IsMerge s.similarity a b m → P m)
    (hleft : ∀ a b m, P a → P b → IsMerge s.similarity a b m → R a m)
    (hright : ∀ a b m, P a → P b → IsMerge s.similarity a b m → R b m)
    (hnumbered : ∀ t u, P t → IsNumbered s t u → R t u)
    (hgiven : ∀ t ∈ trees, ∀ u ∈ trees, t.digest = u.digest → R t u)
    (hgathered : ∀ t ∈ gathered s kind trees, ∀ u ∈ gathered s kind trees,
      t.digest = u.digest → R t u)
    (hrefl : ∀ t, R t t) (htrans : ∀ t u w, R t u → R u w → R t w)
    (htrees : ∀ t ∈ trees, P t) {t : TypeTree} (ht : t ∈ trees) :
    ∃ u ∈ arrange s kind trees, R t u := by
  have hnumber : ∀ ts : List TypeTree, (∀ t ∈ ts, P t) → ∀ t ∈ ts,
      ∃ u ∈ disambiguate s ts, R t u := by
    intro ts hts t ht
    rcases exists_mem_right_of_forall₂ (forall₂_disambiguate s ts) ht with ⟨u, hu, hn⟩
    exact ⟨u, hu, hnumbered t u (hts t ht) hn⟩
  have hdropped : ∀ ts : List TypeTree,
      (∀ t ∈ ts, ∀ u ∈ ts, t.digest = u.digest → R t u) → ∀ t ∈ ts,
      ∃ u ∈ dropRepeated ts, R t u := by
    intro ts hts t ht
    rcases exists_mem_dropRepeated ht with ⟨u, hu, heq⟩
    exact ⟨u, hu, hts t ht u (mem_of_mem_dropSeen hu) heq.symm⟩
  -- The elements of a tuple of fixed size are only numbered.
  by_cases hfixed : kind = .tuple .fixed
  · rw [hfixed]
    exact hnumber trees htrees t ht
  · rw [gathered_of_ne_fixed hfixed] at hgathered
    rw [arrange_of_ne_fixed hfixed]
    have hP₁ : ∀ t ∈ dropRepeated trees, P t := fun t ht => htrees t (mem_of_mem_dropSeen ht)
    have hnil : ∀ u ∈ ([] : List TypeTree), P u := fun u hu => absurd hu List.not_mem_nil
    -- An element goes through the four passes, and each covers what the one before left.
    rcases hdropped trees hgiven t ht with ⟨t₁, ht₁, h₁⟩
    rcases exists_covering_foldl_place hmerge hleft hright hrefl htrans hP₁ hnil (Or.inl ht₁) with
      ⟨t₂, ht₂, h₂⟩
    rcases hdropped _ hgathered t₂ ht₂ with ⟨t₃, ht₃, h₃⟩
    rcases hnumber _ (forall_mem_mergeSimilar hmerge hP₁) t₃ ht₃ with ⟨t₄, ht₄, h₄⟩
    exact ⟨t₄, ht₄, htrans _ _ _ (htrans _ _ _ (htrans _ _ _ h₁ h₂) h₃) h₄⟩

end TypeTree

end TypeSketch
