import Mathlib.Data.List.Basic

/-!
# Reading Paragraphs

A text of paragraphs with an empty line between any two of them, where a paragraph is a
list of lines, none of them empty. The text is that of all its lines, the empty ones
included, so it can be read in two steps: the lines end at the line feeds, and the
paragraphs end at the empty lines.

## Theorems

* `Text.intercalate_paragraphs`: Paragraphs are lines with empty ones between them.
* `Text.paragraphs_injective`: The text determines the paragraphs.
* `Text.intercalate_cons_eq`, `Text.intercalate_concat_eq`: Lines with their line feeds.
-/

namespace TypeSketch

namespace Text

variable {α : Type}

/-- A separated list is its first part and the others with the separator before each. -/
theorem intercalate_cons_eq (z : α) (l : List α) (ls : List (List α)) :
    [z].intercalate (l :: ls) = l ++ ls.flatMap (z :: ·) := by
  induction ls generalizing l with
  | nil => rw [List.intercalate_singleton, List.flatMap_nil, List.append_nil]
  | cons l' ls ih =>
    rw [List.intercalate_cons_cons, ih, List.flatMap_cons, List.append_assoc]
    rfl

/-- A separated list is its last part and the others with the separator behind each. -/
theorem intercalate_concat_eq (z : α) (ls : List (List α)) (last : List α) :
    [z].intercalate (ls ++ [last]) = ls.flatMap (· ++ [z]) ++ last := by
  induction ls with
  | nil => exact List.intercalate_singleton
  | cons l ls ih =>
    have hne : ls ++ [last] ≠ [] := List.append_ne_nil_of_right_ne_nil ls (List.cons_ne_nil _ _)
    rw [List.cons_append, List.intercalate_cons_of_ne_nil hne, ih, List.flatMap_cons,
      List.append_assoc, List.append_assoc, List.append_assoc]

theorem intercalate_append {sep : List α} {ls ms : List (List α)} (hl : ls ≠ []) (hm : ms ≠ []) :
    sep.intercalate (ls ++ ms) = sep.intercalate ls ++ sep ++ sep.intercalate ms := by
  induction ls with
  | nil => contradiction
  | cons l ls ih =>
    cases ls with
    | nil =>
      rw [List.cons_append, List.nil_append, List.intercalate_cons_of_ne_nil hm,
        List.intercalate_singleton]
    | cons l' ls =>
      have hne : (l' :: ls) ++ ms ≠ [] := List.append_ne_nil_of_right_ne_nil _ hm
      rw [List.cons_append, List.intercalate_cons_of_ne_nil hne, ih (List.cons_ne_nil _ _),
        List.intercalate_cons_cons]
      simp only [List.append_assoc]

theorem not_mem_intercalate {z : α} {sep : List α} {ls : List (List α)} (hsep : z ∉ sep)
    (h : ∀ l ∈ ls, z ∉ l) : z ∉ sep.intercalate ls := by
  induction ls with
  | nil => exact List.not_mem_nil
  | cons l ls ih =>
    have hl := h l List.mem_cons_self
    cases ls with
    | nil => rwa [List.intercalate_singleton]
    | cons l' ls =>
      rw [List.intercalate_cons_cons, List.mem_append, List.mem_append]
      exact fun hmem => hmem.elim (fun hmem => hmem.elim hl hsep)
        (ih fun m hm => h m (List.mem_cons_of_mem l hm))

/-- The text of paragraphs is the text of their lines and the empty ones between them. -/
theorem intercalate_paragraphs (z : α) {paragraphs : List (List (List α))}
    (h : ∀ p ∈ paragraphs, p ≠ []) :
    [z, z].intercalate (paragraphs.map ([z].intercalate ·)) =
      [z].intercalate ([[]].intercalate paragraphs) := by
  induction paragraphs with
  | nil => rfl
  | cons p rest ih =>
    have hp := h p List.mem_cons_self
    have hrest : ∀ q ∈ rest, q ≠ [] := fun q hq => h q (List.mem_cons_of_mem p hq)
    cases rest with
    | nil => simp only [List.map_cons, List.map_nil, List.intercalate_singleton]
    | cons q rest =>
      have hlines : [[]].intercalate (q :: rest) ≠ [] := by
        have hq := hrest q List.mem_cons_self
        rw [intercalate_cons_eq]
        exact List.append_ne_nil_of_left_ne_nil hq _
      have hfirst : p ++ [[]] ≠ [] := List.append_ne_nil_of_left_ne_nil hp _
      -- Two breaks between paragraphs are one break, an empty line and one more break.
      rw [List.map_cons, List.map_cons, List.intercalate_cons_cons, ← List.map_cons, ih hrest,
        List.intercalate_cons_cons, intercalate_append hfirst hlines,
        intercalate_append hp (List.cons_ne_nil [] []), List.intercalate_singleton]
      simp only [List.append_assoc, List.nil_append, List.cons_append]

/-- The text of paragraphs determines them. -/
theorem paragraphs_injective [DecidableEq α] {z : α} {ps qs : List (List (List α))} (hp : ps ≠ [])
    (hq : qs ≠ []) (hps : ∀ p ∈ ps, p ≠ [] ∧ ∀ l ∈ p, l ≠ [] ∧ z ∉ l)
    (hqs : ∀ q ∈ qs, q ≠ [] ∧ ∀ l ∈ q, l ≠ [] ∧ z ∉ l)
    (h : [z, z].intercalate (ps.map ([z].intercalate ·)) =
      [z, z].intercalate (qs.map ([z].intercalate ·))) : ps = qs := by
  -- The two steps back, for one text of paragraphs.
  have hread : ∀ ps : List (List (List α)), ps ≠ [] →
      (∀ p ∈ ps, p ≠ [] ∧ ∀ l ∈ p, l ≠ [] ∧ z ∉ l) →
        (([z, z].intercalate (ps.map ([z].intercalate ·))).splitOn z).splitOn [] = ps := by
    intro ps hp hps
    -- No line has a break in it, and that goes for the empty ones too.
    have hlines : ∀ l ∈ [[]].intercalate ps, z ∉ l := by
      cases ps with
      | nil => contradiction
      | cons p rest =>
        rw [intercalate_cons_eq]
        intro l hl
        rcases List.mem_append.mp hl with hl | hl
        · exact ((hps p List.mem_cons_self).2 l hl).2
        · rcases List.mem_flatMap.mp hl with ⟨q, hq, hl⟩
          rcases List.mem_cons.mp hl with rfl | hl
          · exact List.not_mem_nil
          · exact ((hps q (List.mem_cons_of_mem p hq)).2 l hl).2
    have hne : [[]].intercalate ps ≠ [] := by
      cases ps with
      | nil => contradiction
      | cons p rest =>
        rw [intercalate_cons_eq]
        exact List.append_ne_nil_of_left_ne_nil (hps p List.mem_cons_self).1 _
    have hempty : ∀ p ∈ ps, [] ∉ p := fun p hp hl => ((hps p hp).2 [] hl).1 rfl
    rw [intercalate_paragraphs z fun p hp => (hps p hp).1, List.splitOn_intercalate z hlines hne,
      List.splitOn_intercalate [] hempty hp]
  rw [← hread ps hp hps, h, hread qs hq hqs]

end Text

end TypeSketch
