/-!
# Tables

Lists of pairs in which values are looked up by their keys: registrations, manifests, the
nodes of a disk, the names that are taken and the expansions of characters.

## Theorems

* `lookup_cons_ite`: A lookup in a table with another row.
* `lookup_filter`: A lookup in a table without some keys.
* `mem_of_lookup_eq_some`: What is found is in the table.
-/

namespace TypeSketch

variable {α β : Type} [BEq α] [LawfulBEq α]

theorem lookup_cons_ite [DecidableEq α] (first : α) (b : β) (rest : List (α × β)) (a : α) :
    ((first, b) :: rest).lookup a = if a = first then some b else rest.lookup a := by
  rw [List.lookup_cons]
  by_cases heq : a = first
  · rw [if_pos heq, beq_iff_eq.mpr heq]
  · rw [if_neg heq, beq_eq_false_iff_ne.mpr heq]

theorem lookup_filter [DecidableEq α] (p : α → Bool) (table : List (α × β)) (a : α) :
    (table.filter fun row => p row.1).lookup a = if p a = true then table.lookup a else none := by
  induction table with
  | nil => exact (ite_self _).symm
  | cons row rest ih =>
    rcases row with ⟨first, b⟩
    rw [List.filter_cons, lookup_cons_ite]
    dsimp only
    by_cases hfirst : p first = true
    · rw [if_pos hfirst, lookup_cons_ite, ih]
      by_cases heq : a = first
      · rw [if_pos heq, if_pos heq, heq, if_pos hfirst]
      · rw [if_neg heq, if_neg heq]
    -- The row is gone, so it is not the one that is looked for.
    · rw [if_neg hfirst, ih]
      by_cases heq : a = first
      · rw [heq, if_neg hfirst, if_neg hfirst]
      · rw [if_neg heq]

theorem mem_of_lookup_eq_some {table : List (α × β)} {a : α} {b : β}
    (h : table.lookup a = some b) : (a, b) ∈ table := by
  rcases List.lookup_eq_some_iff.mp h with ⟨before, after, rfl, _⟩
  exact List.mem_append_right before List.mem_cons_self

end TypeSketch
