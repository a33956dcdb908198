import Mathlib.Data.List.Basic

/-!
# Delimited Codes

A code for the elements of a type is delimited if what it writes for an element can be
read back with anything behind it: the element and what is behind it are determined.
Then lists of elements, written one after another, can be read back as well.

An injective code of a fixed length is delimited, and so is one that ends with a letter
that occurs nowhere else in it.

## Main definitions

* `Delimited`: Codes that can be read with anything behind them.
* `StartsBlock`: Words with a letter at their start that is of a kind no other letter is of.

## Theorems

* `delimited_of_length`, `eq_of_append_stop`, `eq_of_append_terminator`: How codes are
  delimited.
* `eq_of_flatten_eq`: Words that are told apart by their first letters.
* `Delimited.pair`: One code behind another.
* `flatMap_append_inj_of_mem`, `Delimited.flatMap_append_inj`, `Delimited.flatMap_injective`,
  `Delimited.flatMap_append_terminator_inj`: Lists of elements.
-/

namespace TypeSketch

variable {α β γ : Type}

/-- A code from which an element can be read with anything behind it. -/
def Delimited (code : α → List β) : Prop :=
  ∀ ⦃a b : α⦄ ⦃x y : List β⦄, code a ++ x = code b ++ y → a = b ∧ x = y

theorem delimited_of_length {code : α → List β} {n : Nat} (hlength : ∀ a, (code a).length = n)
    (hinj : ∀ a b, code a = code b → a = b) : Delimited code := by
  intro a b x y h
  rcases List.append_inj h (by rw [hlength, hlength]) with ⟨hcode, hrest⟩
  exact ⟨hinj a b hcode, hrest⟩

/-- A word ends where the first letter stands that stops words, if what is behind it starts
    with one or is empty. -/
theorem eq_of_append_stop {stop : β → Prop} {l r x y : List β} (hl : ∀ b ∈ l, ¬stop b)
    (hr : ∀ b ∈ r, ¬stop b) (hx : ∀ b rest, x = b :: rest → stop b)
    (hy : ∀ b rest, y = b :: rest → stop b) (h : l ++ x = r ++ y) : l = r ∧ x = y := by
  induction l generalizing r with
  | nil =>
    cases r with
    | nil => exact ⟨rfl, h⟩
    | cons b r => exact absurd (hx b _ h) (hr b List.mem_cons_self)
  | cons a l ih =>
    cases r with
    | nil => exact absurd (hy a _ h.symm) (hl a List.mem_cons_self)
    | cons b r =>
      rcases List.cons.inj h with ⟨hab, hrest⟩
      rcases ih (fun c hc => hl c (List.mem_cons_of_mem a hc))
        (fun c hc => hr c (List.mem_cons_of_mem b hc)) hrest with ⟨hlr, hxy⟩
      exact ⟨by rw [hab, hlr], hxy⟩

/-- A word ends where a letter stands that does not occur in it. -/
theorem eq_of_append_terminator {z : β} {l r x y : List β} (hl : z ∉ l) (hr : z ∉ r)
    (h : l ++ z :: x = r ++ z :: y) : l = r ∧ x = y := by
  have hstop : ∀ x b rest, z :: x = b :: rest → b = z := fun _ _ _ heq => (List.cons.inj heq).1.symm
  have hnot : ∀ {l : List β}, z ∉ l → ∀ b ∈ l, ¬b = z := by
    rintro l hz b hb rfl
    exact hz hb
  rcases eq_of_append_stop (hnot hl) (hnot hr) (hstop x) (hstop y) h with ⟨hlr, hxy⟩
  exact ⟨hlr, (List.cons.inj hxy).2⟩

/-- The first letter of the word is a start, and no other one is. -/
def StartsBlock (start : β → Prop) (l : List β) : Prop :=
  ∃ b rest, l = b :: rest ∧ start b ∧ ∀ c ∈ rest, ¬start c

/-- Words one after another can be read if each has a start at its start only. -/
theorem eq_of_flatten_eq {start : β → Prop} {ls ms : List (List β)}
    (hls : ∀ l ∈ ls, StartsBlock start l) (hms : ∀ m ∈ ms, StartsBlock start m)
    (h : ls.flatten = ms.flatten) : ls = ms := by
  -- What is behind a word is empty or starts with a start.
  have hrest : ∀ {ls : List (List β)}, (∀ l ∈ ls, StartsBlock start l) →
      ∀ b rest, ls.flatten = b :: rest → start b := by
    intro ls hls b rest heq
    cases ls with
    | nil => contradiction
    | cons l ls =>
      rcases hls l List.mem_cons_self with ⟨c, cs, rfl, hc, _⟩
      rwa [← (List.cons.inj heq).1]
  induction ls generalizing ms with
  | nil =>
    cases ms with
    | nil => rfl
    | cons m ms =>
      rcases hms m List.mem_cons_self with ⟨c, cs, rfl, _, _⟩
      contradiction
  | cons l ls ih =>
    rcases hls l List.mem_cons_self with ⟨b, bs, rfl, _, hbs⟩
    have hls' := fun l hl => hls l (List.mem_cons_of_mem (b :: bs) hl)
    cases ms with
    | nil => contradiction
    | cons m ms =>
      rcases hms m List.mem_cons_self with ⟨c, cs, rfl, _, hcs⟩
      have hms' := fun m hm => hms m (List.mem_cons_of_mem (c :: cs) hm)
      rw [List.flatten_cons, List.flatten_cons, List.cons_append, List.cons_append,
        List.cons.injEq] at h
      -- Both words end where the next start stands, or with the lists.
      rcases eq_of_append_stop hbs hcs (hrest hls') (hrest hms') h.2 with ⟨htail, hmore⟩
      rw [h.1, htail, ih hls' hms' hmore]

theorem Delimited.pair {f : α → List γ} {g : β → List γ} (hf : Delimited f) (hg : Delimited g) :
    Delimited fun p : α × β => f p.1 ++ g p.2 := by
  rintro ⟨a, b⟩ ⟨a', b'⟩ x y h
  rw [List.append_assoc, List.append_assoc] at h
  rcases hf h with ⟨ha, hrest⟩
  rcases hg hrest with ⟨hb, hxy⟩
  exact ⟨Prod.ext ha hb, hxy⟩

/-- A list of known length can be read with anything behind it, if each of its elements
    can. -/
theorem flatMap_append_inj_of_mem {code : α → List β} {l r : List α} {x y : List β}
    (h : ∀ a ∈ l, ∀ b x y, code a ++ x = code b ++ y → a = b ∧ x = y)
    (hlength : l.length = r.length) (heq : l.flatMap code ++ x = r.flatMap code ++ y) :
    l = r ∧ x = y := by
  induction l generalizing r with
  | nil =>
    rw [List.eq_nil_of_length_eq_zero hlength.symm] at heq ⊢
    exact ⟨rfl, heq⟩
  | cons a l ih =>
    cases r with
    | nil => contradiction
    | cons b r =>
      rw [List.flatMap_cons, List.flatMap_cons, List.append_assoc, List.append_assoc] at heq
      rcases h a List.mem_cons_self b _ _ heq with ⟨hab, hrest⟩
      rcases ih (fun c hc => h c (List.mem_cons_of_mem a hc)) (Nat.succ.inj hlength) hrest with
        ⟨hlr, hxy⟩
      exact ⟨by rw [hab, hlr], hxy⟩

theorem Delimited.flatMap_append_inj {code : α → List β} (h : Delimited code) {l r : List α}
    {x y : List β} (hlength : l.length = r.length)
    (heq : l.flatMap code ++ x = r.flatMap code ++ y) : l = r ∧ x = y :=
  flatMap_append_inj_of_mem (fun _ _ _ _ _ hcode => h hcode) hlength heq

/-- A list of any length can be read if nothing is behind it. -/
theorem Delimited.flatMap_injective {code : α → List β} (h : Delimited code)
    (hne : ∀ a, code a ≠ []) {l r : List α} (heq : l.flatMap code = r.flatMap code) : l = r := by
  induction l generalizing r with
  | nil =>
    cases r with
    | nil => rfl
    | cons b r =>
      rw [List.flatMap_nil, List.flatMap_cons] at heq
      exact absurd (List.append_eq_nil_iff.mp heq.symm).1 (hne b)
  | cons a l ih =>
    cases r with
    | nil =>
      rw [List.flatMap_nil, List.flatMap_cons] at heq
      exact absurd (List.append_eq_nil_iff.mp heq).1 (hne a)
    | cons b r =>
      rw [List.flatMap_cons, List.flatMap_cons] at heq
      -- The first code word can be split off, whatever is behind it.
      rcases h heq with ⟨hab, hrest⟩
      rw [hab, ih hrest]

/-- A list of any length can be read with anything behind it, if the letter behind it
    starts no element. -/
theorem Delimited.flatMap_append_terminator_inj {code : α → List β} (h : Delimited code) {z : β}
    (hne : ∀ a x, code a ≠ z :: x) (hcode : ∀ a, code a ≠ []) {l r : List α} {x y : List β}
    (heq : l.flatMap code ++ z :: x = r.flatMap code ++ z :: y) : l = r ∧ x = y := by
  -- An element starts with another letter than `z`, with anything behind it.
  have hstart : ∀ a x y, code a ++ x ≠ z :: y := by
    intro a x y hstart
    cases hletters : code a with
    | nil => exact hcode a hletters
    | cons b letters =>
      rw [hletters, List.cons_append, List.cons.injEq] at hstart
      rw [hstart.1] at hletters
      exact hne a letters hletters
  induction l generalizing r with
  | nil =>
    cases r with
    | nil => exact ⟨rfl, (List.cons.inj heq).2⟩
    | cons b r =>
      rw [List.flatMap_nil, List.flatMap_cons, List.append_assoc] at heq
      exact absurd heq.symm (hstart b _ _)
  | cons a l ih =>
    cases r with
    | nil =>
      rw [List.flatMap_nil, List.flatMap_cons, List.append_assoc] at heq
      exact absurd heq (hstart a _ _)
    | cons b r =>
      rw [List.flatMap_cons, List.flatMap_cons, List.append_assoc, List.append_assoc] at heq
      -- The first code word is split off as before. If one list is at its end, the terminator would
      -- have to start a code word.
      rcases h heq with ⟨hab, hrest⟩
      rcases ih hrest with ⟨hlr, hxy⟩
      exact ⟨by rw [hab, hlr], hxy⟩

end TypeSketch
