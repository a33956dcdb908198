import Mathlib.Data.List.Induction
import Mathlib.Data.List.Nodup

/-!
# First Occurrences

The elements of a list that are the first ones of their key, in order. What is appended to
a list goes behind its first occurrences or is dropped, so the first occurrences of a list
are found again at the start of those of every longer one, and a loop that goes through a
list once can keep them as it goes.

## Main definitions

* `firstsBy`: The first element of each key.

## Theorems

* `firstsBy_concat`: One more element.
* `mem_map_firstsBy`: No key is lost.
* `nodup_map_firstsBy`: No key is left twice.
* `firstsBy_sublist`, `firstsBy_map`: Where first occurrences stand.
* `firstsBy_append`: What comes behind a list.
* `firstsBy_insert`: An element of a known key.
* `filter_firstsBy`: First occurrences among some of the elements.
* `firstsBy_eq_self`: A list without repetitions.
* `firstsBy_congr`: Another key that tells the same elements apart.
-/

namespace TypeSketch

variable {α β : Type} [DecidableEq β] {f : α → β} {l : List α} {a : α}

/-- The first element of each key. -/
def firstsBy (f : α → β) (l : List α) : List α :=
  l.eraseDupsBy fun a b => f a == f b

theorem firstsBy_nil : firstsBy f [] = [] := List.eraseDupsBy_nil

theorem firstsBy_cons : firstsBy f (a :: l) = a :: firstsBy f (l.filter fun b => f b ≠ f a) := by
  rw [firstsBy, List.eraseDupsBy_cons]
  simp only [beq_eq_false_iff_ne]
  rfl

/-- An element behind a list is dropped if its key is in the list. -/
theorem firstsBy_concat (l : List α) (a : α) :
    firstsBy f (l ++ [a]) = if f a ∈ l.map f then firstsBy f l else firstsBy f l ++ [a] := by
  match l with
  | [] => rfl
  | b :: rest =>
    rw [List.cons_append, firstsBy_cons, firstsBy_cons, List.filter_append, List.map_cons]
    by_cases hkey : f a = f b
    · rw [List.filter_cons_of_neg (by simpa using hkey), List.filter_nil, List.append_nil,
        if_pos (by rw [hkey]; exact List.mem_cons_self)]
    · have hmem : f a ∈ (rest.filter fun c => f c ≠ f b).map f ↔ f a ∈ f b :: rest.map f := by
        simp only [List.mem_map, List.mem_filter, decide_eq_true_eq, List.mem_cons, hkey, false_or]
        exact exists_congr fun c => ⟨fun h => ⟨h.1.1, h.2⟩, fun h => ⟨⟨h.1, h.2 ▸ hkey⟩, h.2⟩⟩
      rw [List.filter_cons_of_pos (by simpa using hkey), List.filter_nil, firstsBy_concat]
      simp only [hmem]
      split <;> rfl
termination_by l.length
decreasing_by exact Nat.lt_succ_of_le (List.length_filter_le _ _)

theorem mem_map_firstsBy {key : β} : key ∈ (firstsBy f l).map f ↔ key ∈ l.map f := by
  induction l using List.reverseRecOn with
  | nil => rw [firstsBy_nil]
  | append_singleton l a ih =>
    rw [firstsBy_concat, List.map_append, List.mem_append, List.map_singleton,
      List.mem_singleton]
    split
    · next hmem =>
      rw [ih]
      exact (or_iff_left_of_imp fun heq => heq ▸ hmem).symm
    · rw [List.map_append, List.mem_append, ih, List.map_singleton, List.mem_singleton]

theorem nodup_map_firstsBy (f : α → β) (l : List α) : ((firstsBy f l).map f).Nodup := by
  induction l using List.reverseRecOn with
  | nil => exact List.nodup_nil
  | append_singleton l a ih =>
    rw [firstsBy_concat]
    split
    · exact ih
    · next hfresh =>
      rw [List.map_append, List.map_singleton, ← List.concat_eq_append, List.nodup_concat]
      exact ⟨fun hmem => hfresh (mem_map_firstsBy.mp hmem), ih⟩

theorem firstsBy_sublist (f : α → β) (l : List α) : (firstsBy f l).Sublist l := by
  induction l using List.reverseRecOn with
  | nil => exact List.Sublist.refl []
  | append_singleton l a ih =>
    rw [firstsBy_concat]
    split
    · exact ih.trans (List.sublist_append_left l [a])
    · exact ih.append (List.Sublist.refl [a])

/-- A list of images has its first occurrences where the list has them. -/
theorem firstsBy_map {γ : Type} (g : γ → α) (l : List γ) :
    firstsBy f (l.map g) = (firstsBy (f ∘ g) l).map g := by
  induction l using List.reverseRecOn with
  | nil => rfl
  | append_singleton l c ih =>
    rw [List.map_append, List.map_singleton, firstsBy_concat, firstsBy_concat, ih, List.map_map,
      Function.comp_apply]
    split
    · rfl
    · rw [List.map_append, List.map_singleton]

/-- First occurrences stay where they are if a list goes on, and those with a new key follow. -/
theorem firstsBy_append (l more : List α) : firstsBy f (l ++ more) =
    firstsBy f l ++ (firstsBy f more).filter fun a => f a ∉ l.map f := by
  induction more using List.reverseRecOn with
  | nil => rw [firstsBy_nil, List.filter_nil, List.append_nil, List.append_nil]
  | append_singleton more a ih =>
    have hmem : f a ∈ (l ++ more).map f ↔ f a ∈ l.map f ∨ f a ∈ more.map f := by
      rw [List.map_append, List.mem_append]
    rw [← List.append_assoc, firstsBy_concat, firstsBy_concat, ih]
    -- The last element has been seen behind the cut, before it or not at all.
    by_cases hmore : f a ∈ more.map f
    · rw [if_pos (hmem.mpr (Or.inr hmore)), if_pos hmore]
    · rw [if_neg hmore, List.filter_append]
      by_cases hl : f a ∈ l.map f
      · rw [if_pos (hmem.mpr (Or.inl hl)), List.filter_cons_of_neg (by simpa using hl),
          List.filter_nil, List.append_nil]
      · rw [if_neg fun h => (hmem.mp h).elim hl hmore, List.filter_cons_of_pos (by simpa using hl),
          List.filter_nil, List.append_assoc]

/-- An element whose key has occurred can stand anywhere or be left out. -/
theorem firstsBy_insert {more : List α} (h : f a ∈ l.map f) :
    firstsBy f (l ++ a :: more) = firstsBy f (l ++ more) := by
  -- The keys of what comes first are the same with the element and without it.
  have hkeys : ∀ b, f b ∈ (l ++ [a]).map f ↔ f b ∈ l.map f := by
    intro b
    rw [List.map_append, List.mem_append, List.map_singleton, List.mem_singleton]
    exact or_iff_left_of_imp fun heq => heq ▸ h
  rw [List.append_cons, firstsBy_append (l ++ [a]), firstsBy_concat, if_pos h, firstsBy_append l]
  simp only [hkeys]

/-- What the keys decide can be asked before or after. -/
theorem filter_firstsBy {p : α → Bool} (h : ∀ a ∈ l, ∀ b ∈ l, f a = f b → p a = p b) :
    (firstsBy f l).filter p = firstsBy f (l.filter p) := by
  induction l using List.reverseRecOn with
  | nil => rfl
  | append_singleton l a ih =>
    have hrest : ∀ b ∈ l, ∀ c ∈ l, f b = f c → p b = p c := fun b hb c hc =>
      h b (List.mem_append_left _ hb) c (List.mem_append_left _ hc)
    have hlast : ∀ b ∈ l, f b = f a → p b = p a := fun b hb =>
      h b (List.mem_append_left _ hb) a (List.mem_append_right _ List.mem_cons_self)
    rw [firstsBy_concat, List.filter_append]
    -- Elements of one value are kept or left out together, so a kept element is new in the filtered
    -- list if it is new in the list.
    by_cases hpa : p a = true
    · have hmem : f a ∈ (l.filter p).map f ↔ f a ∈ l.map f := by
        simp only [List.mem_map, List.mem_filter]
        exact exists_congr fun b =>
          ⟨fun hb => ⟨hb.1.1, hb.2⟩, fun hb => ⟨⟨hb.1, (hlast b hb.1 hb.2).trans hpa⟩, hb.2⟩⟩
      rw [List.filter_cons_of_pos hpa, List.filter_nil, firstsBy_concat, ← ih hrest]
      by_cases hknown : f a ∈ l.map f
      · rw [if_pos hknown, if_pos (hmem.mpr hknown)]
      · rw [if_neg hknown, if_neg fun hl => hknown (hmem.mp hl), List.filter_append,
          List.filter_cons_of_pos hpa, List.filter_nil]
    · rw [List.filter_cons_of_neg hpa, List.filter_nil, List.append_nil, ← ih hrest]
      split
      · rfl
      · rw [List.filter_append, List.filter_cons_of_neg hpa, List.filter_nil, List.append_nil]

theorem firstsBy_eq_self (h : (l.map f).Nodup) : firstsBy f l = l := by
  induction l using List.reverseRecOn with
  | nil => exact firstsBy_nil
  | append_singleton l a ih =>
    rw [List.map_append, List.map_singleton, ← List.concat_eq_append, List.nodup_concat] at h
    rw [firstsBy_concat, if_neg h.1, ih h.2]

/-- Keys that tell the same elements apart have the same first occurrences. -/
theorem firstsBy_congr {γ : Type} [DecidableEq γ] {g : α → γ}
    (h : ∀ a ∈ l, ∀ b ∈ l, f a = f b ↔ g a = g b) : firstsBy f l = firstsBy g l := by
  induction l using List.reverseRecOn with
  | nil => rw [firstsBy_nil, firstsBy_nil]
  | append_singleton l a ih =>
    have hlast : a ∈ l ++ [a] := List.mem_append_right _ List.mem_cons_self
    have hknown : f a ∈ l.map f ↔ g a ∈ l.map g := by
      simp only [List.mem_map]
      exact exists_congr fun b => and_congr_right fun hb => h b (List.mem_append_left _ hb) a hlast
    rw [firstsBy_concat, firstsBy_concat, ih fun b hb c hc =>
      h b (List.mem_append_left _ hb) c (List.mem_append_left _ hc)]
    simp only [hknown]

end TypeSketch
