import Mathlib.Data.List.Forall2

/-!
# Lists Related Element by Element

Two lists of one length whose elements are related one by one, as values and their trees
are, or elements before and after a pass. What is in one of the lists has its partner
in the other.

## Theorems

* `exists_mem_left_of_forall₂`, `exists_mem_right_of_forall₂`: The partner of an element.
* `exists_of_forall₂_append_cons`: The partner of an element and what stands around it.
* `map_eq_of_forall₂`: Lists of one image.
* `forall₂_of_map_eq`: Elements that stand in for each other.
* `forall₂_pairs`, `exists_pairs_of_forall₂`: Pairs that are related part by part.
* `pairwise_of_forall₂`: What holds of any two elements.
* `forall₂_flatMap`: Lists made of the same elements.
* `forall₂_of_mapM_eq_ok`: What has been made of each element without a failure.
-/

namespace TypeSketch

variable {α β : Type} {R : α → β → Prop} {l : List α} {r : List β}

theorem exists_mem_left_of_forall₂ (h : List.Forall₂ R l r) {b : β} (hb : b ∈ r) :
    ∃ a ∈ l, R a b := by
  induction h with
  | nil => exact absurd hb List.not_mem_nil
  | cons hab _ ih =>
    rcases List.mem_cons.mp hb with rfl | hb
    · exact ⟨_, List.mem_cons_self, hab⟩
    · rcases ih hb with ⟨a, ha, hr⟩
      exact ⟨a, List.mem_cons_of_mem _ ha, hr⟩

theorem exists_mem_right_of_forall₂ (h : List.Forall₂ R l r) {a : α} (ha : a ∈ l) :
    ∃ b ∈ r, R a b :=
  exists_mem_left_of_forall₂ h.flip ha

/-- A list is cut where its partner is. -/
theorem exists_of_forall₂_append_cons {before after : List β} {b : β}
    (h : List.Forall₂ R l (before ++ b :: after)) :
    ∃ before' a after', l = before' ++ a :: after' ∧ List.Forall₂ R before' before ∧ R a b ∧
      List.Forall₂ R after' after := by
  induction before generalizing l with
  | nil =>
    cases h with
    | cons hab hafter => exact ⟨[], _, _, rfl, List.Forall₂.nil, hab, hafter⟩
  | cons c before ih =>
    cases h with
    | cons hac hrest =>
      rcases ih hrest with ⟨before', a, after', rfl, hbefore, hab, hafter⟩
      exact ⟨_ :: before', a, after', rfl, List.Forall₂.cons hac hbefore, hab, hafter⟩

theorem exists_forall₂_of_forall_exists (h : ∀ a ∈ l, ∃ b, R a b) : ∃ r, List.Forall₂ R l r := by
  induction l with
  | nil => exact ⟨[], List.Forall₂.nil⟩
  | cons a l ih =>
    rcases h a List.mem_cons_self with ⟨b, hab⟩
    rcases ih fun a' ha' => h a' (List.mem_cons_of_mem a ha') with ⟨r, hr⟩
    exact ⟨b :: r, List.Forall₂.cons hab hr⟩

theorem map_eq_of_forall₂ {γ : Type} {f : α → γ} {g : β → γ}
    (h : List.Forall₂ (fun a b => g b = f a) l r) : r.map g = l.map f := by
  induction h with
  | nil => rfl
  | cons hab _ ih => rw [List.map_cons, List.map_cons, hab, ih]

/-- Elements with one image stand in for each other. -/
theorem forall₂_of_map_eq {γ : Type} {S : α → β → Prop} {f : α → γ} {l' : List α}
    (h : List.Forall₂ R l r) (hmap : l.map f = l'.map f)
    (himp : ∀ a ∈ l, ∀ a' ∈ l', f a = f a' → ∀ b, R a b → S a' b) : List.Forall₂ S l' r := by
  induction h generalizing l' with
  | nil =>
    rw [List.map_nil, eq_comm, List.map_eq_nil_iff] at hmap
    rw [hmap]
    exact List.Forall₂.nil
  | @cons a b l r hab _ ih =>
    cases l' with
    | nil => contradiction
    | cons a' l' =>
      rw [List.map_cons, List.map_cons, List.cons.injEq] at hmap
      refine List.Forall₂.cons ?_ (ih hmap.2 fun c hc c' hc' => ?_)
      · exact himp a List.mem_cons_self a' List.mem_cons_self hmap.1 b hab
      · exact himp c (List.mem_cons_of_mem a hc) c' (List.mem_cons_of_mem a' hc')

theorem forall₂_pairs {γ δ : Type} {S : γ → δ → Prop} {pairs : List (α × γ)} {others : List (β × δ)}
    (hfst : List.Forall₂ R (pairs.map Prod.fst) (others.map Prod.fst))
    (hsnd : List.Forall₂ S (pairs.map Prod.snd) (others.map Prod.snd)) :
    List.Forall₂ (fun p q => R p.1 q.1 ∧ S p.2 q.2) pairs others := by
  rw [List.forall₂_map_left_iff, List.forall₂_map_right_iff] at hfst hsnd
  exact hfst.mp (fun _ _ h h' => And.intro h h') hsnd

/-- The second components of pairs can be exchanged for their partners. -/
theorem exists_pairs_of_forall₂ {γ : Type} {pairs : List (γ × α)}
    (h : List.Forall₂ R (pairs.map Prod.snd) r) : ∃ others : List (γ × β),
      others.map Prod.snd = r ∧ List.Forall₂ (fun p q => q.1 = p.1 ∧ R p.2 q.2) pairs others := by
  induction pairs generalizing r with
  | nil =>
    cases h
    exact ⟨[], rfl, List.Forall₂.nil⟩
  | cons p rest ih =>
    cases h with
    | @cons _ b _ _ hab hrest =>
      rcases ih hrest with ⟨others, rfl, hothers⟩
      exact ⟨(p.1, b) :: others, rfl, List.Forall₂.cons ⟨rfl, hab⟩ hothers⟩

/-- What holds of any two elements holds of their partners. -/
theorem pairwise_of_forall₂ {S : α → α → Prop} {T : β → β → Prop} (h : List.Forall₂ R l r)
    (hl : l.Pairwise S) (himp : ∀ a b a' b', R a b → R a' b' → S a a' → T b b') : r.Pairwise T := by
  induction h with
  | nil => exact List.Pairwise.nil
  | cons hab hrest ih =>
    rw [List.pairwise_cons] at hl ⊢
    refine ⟨fun b' hb' => ?_, ih hl.2⟩
    rcases exists_mem_left_of_forall₂ hrest hb' with ⟨a', ha', hab'⟩
    exact himp _ _ _ _ hab hab' (hl.1 a' ha')

theorem forall₂_flatMap {γ : Type} {f : γ → List α} {g : γ → List β} {items : List γ}
    (h : ∀ c ∈ items, List.Forall₂ R (f c) (g c)) :
    List.Forall₂ R (items.flatMap f) (items.flatMap g) := by
  induction items with
  | nil => exact List.Forall₂.nil
  | cons c rest ih =>
    rw [List.flatMap_cons, List.flatMap_cons]
    exact List.rel_append (h c List.mem_cons_self) (ih fun d hd => h d (List.mem_cons_of_mem c hd))

/-- What has been made of each element, where nothing has failed. -/
theorem forall₂_of_mapM_eq_ok {ε : Type} {f : α → Except ε β} (h : l.mapM f = .ok r) :
    List.Forall₂ (fun a b => f a = .ok b) l r := by
  induction l generalizing r with
  | nil =>
    cases h
    exact List.Forall₂.nil
  | cons a l ih =>
    rw [List.mapM_cons] at h
    -- The first failure would be the result.
    cases hfirst : f a with
    | error error =>
      rw [hfirst] at h
      cases h
    | ok b =>
      cases hrest : l.mapM f with
      | error error =>
        rw [hfirst, hrest] at h
        cases h
      | ok bs =>
        rw [hfirst, hrest] at h
        cases h
        exact List.Forall₂.cons hfirst (ih hrest)

end TypeSketch
