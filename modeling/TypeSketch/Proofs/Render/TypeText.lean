import TypeSketch.Proofs.Lists.Delimited
import TypeSketch.Proofs.Names.Suffixes
import TypeSketch.Proofs.Text.Paragraphs
import TypeSketch.TypeExpr

/-!
# Reading Types

The text of a type determines the type, and where it ends, if its names and constructors
are plain and no constructor stands without arguments. A plain name ends at the first
delimiter. Behind a type that is an argument there is a comma or a bracket, and what a
constructor is told from a name by is another bracket.

## Main definitions

* `TypeExpr.IsPlain`: Types with plain names.
* `TypeExpr.EndsType`: What can stand behind a type.

## Theorems

* `Naming.eq_of_append_end`: A plain name can be read with a delimiter behind it.
* `TypeExpr.toList_text_append_inj`: A type can be read with something behind it.
* `TypeExpr.text_injective`: The text determines the type.
* `TypeExpr.not_mem_text`: A type is on one line.
-/

namespace TypeSketch

namespace Naming

/-- The text starts with no letter of a plain name. -/
def EndsName (x : List Char) : Prop := ∀ c rest, x = c :: rest → c ∈ delimiters

/-- A plain name ends where the first delimiter stands. -/
theorem eq_of_append_end {l r x y : List Char} (hl : ∀ c ∈ l, c ∉ delimiters)
    (hr : ∀ c ∈ r, c ∉ delimiters) (hx : EndsName x) (hy : EndsName y) (h : l ++ x = r ++ y) :
    l = r ∧ x = y :=
  eq_of_append_stop hl hr hx hy h

theorem endsName_cons {c : Char} (hc : c ∈ delimiters) (x : List Char) : EndsName (c :: x) := by
  intro d rest h
  rw [← (List.cons.inj h).1]
  exact hc

end Naming

namespace TypeExpr

open Naming

/-- All names and constructors are plain, and no constructor stands alone. -/
inductive IsPlain : TypeExpr → Prop
  | name {n : String} (plain : Naming.IsPlain n) : IsPlain (.name n)
  | apply {constructor : String} {arguments : List TypeExpr} (plain : Naming.IsPlain constructor)
    (nonempty : arguments ≠ []) (arguments_plain : ∀ e ∈ arguments, IsPlain e) :
    IsPlain (.apply constructor arguments)

/-- The text starts with what can stand behind a type, if it starts with anything. -/
def EndsType (x : List Char) : Prop := ∀ c rest, x = c :: rest → c = ']' ∨ c = ','

theorem EndsType.endsName {x : List Char} (h : EndsType x) : EndsName x := by
  intro c rest heq
  rcases h c rest heq with rfl | rfl <;> decide

theorem endsType_nil : EndsType [] := by
  intro c rest h
  contradiction

theorem endsType_bracket (x : List Char) : EndsType (']' :: x) := by
  intro c rest h
  exact Or.inl (List.cons.inj h).1.symm

theorem endsType_comma (x : List Char) : EndsType (',' :: x) := by
  intro c rest h
  exact Or.inr (List.cons.inj h).1.symm

section Text

theorem texts_eq_map (arguments : List TypeExpr) : texts arguments = arguments.map text := by
  induction arguments with
  | nil => rfl
  | cons e rest ih => rw [texts, ih, List.map_cons]

/-- The arguments of a constructor as they are written. -/
def argumentChars (arguments : List TypeExpr) : List Char :=
  [',', ' '].intercalate (arguments.map (·.text.toList))

theorem toList_text_apply (constructor : String) (arguments : List TypeExpr) :
    (apply constructor arguments).text.toList =
      constructor.toList ++ '[' :: (argumentChars arguments ++ [']']) := by
  have htexts : (", ".intercalate (texts arguments)).toList = argumentChars arguments := by
    rw [String.toList_intercalate, texts_eq_map, List.map_map]
    rfl
  rw [text]
  simp only [String.toList_append, htexts]
  simp

theorem toList_text_apply_append (constructor : String) (arguments : List TypeExpr) (x : List Char) :
    (apply constructor arguments).text.toList ++ x =
      constructor.toList ++ '[' :: (argumentChars arguments ++ ']' :: x) := by
  rw [toList_text_apply, List.append_assoc, List.cons_append, List.append_assoc]
  rfl

theorem argumentChars_singleton (e : TypeExpr) : argumentChars [e] = e.text.toList := by
  rw [argumentChars, List.map_singleton, List.intercalate_singleton]

theorem argumentChars_cons_cons (e f : TypeExpr) (rest : List TypeExpr) :
    argumentChars (e :: f :: rest) =
      e.text.toList ++ ',' :: ' ' :: argumentChars (f :: rest) := by
  simp only [argumentChars, List.map_cons, List.intercalate_cons_cons]
  simp

/-- Arguments can be read with a bracket behind them, if each of them can be read. -/
theorem argumentChars_append_inj {arguments others : List TypeExpr} {x y : List Char}
    (ih : ∀ e ∈ arguments, ∀ f ∈ others, ∀ x y, EndsType x → EndsType y →
      e.text.toList ++ x = f.text.toList ++ y → e = f ∧ x = y)
    (hne : arguments ≠ []) (hne' : others ≠ [])
    (h : argumentChars arguments ++ ']' :: x = argumentChars others ++ ']' :: y) :
    arguments = others ∧ x = y := by
  -- The induction is on the arguments, and the other ones are taken apart along with them.
  induction arguments generalizing others with
  | nil => contradiction
  | cons e rest ihrest =>
    cases others with
    | nil => contradiction
    | cons f rest' =>
      have hfirst := ih e List.mem_cons_self f List.mem_cons_self
      -- What stands behind the first argument tells whether there is another one.
      cases rest with
      | nil =>
        cases rest' with
        | nil =>
          rw [argumentChars_singleton, argumentChars_singleton] at h
          rcases hfirst _ _ (endsType_bracket x) (endsType_bracket y) h with ⟨hef, hrest⟩
          exact ⟨by rw [hef], (List.cons.inj hrest).2⟩
        | cons f' rest' =>
          rw [argumentChars_singleton, argumentChars_cons_cons, List.append_assoc] at h
          have hrest := (hfirst _ _ (endsType_bracket x) (endsType_comma _) h).2
          exact absurd (List.cons.inj hrest).1 (by decide)
      | cons e' rest =>
        cases rest' with
        | nil =>
          rw [argumentChars_singleton, argumentChars_cons_cons, List.append_assoc] at h
          have hrest := (hfirst _ _ (endsType_comma _) (endsType_bracket y) h).2
          exact absurd (List.cons.inj hrest).1 (by decide)
        | cons f' rest' =>
          rw [argumentChars_cons_cons, argumentChars_cons_cons, List.append_assoc,
            List.append_assoc] at h
          rcases hfirst _ _ (endsType_comma _) (endsType_comma _) h with ⟨hef, hrest⟩
          have hmore := (List.cons.inj (List.cons.inj hrest).2).2
          rcases ihrest (fun e he f hf => ih e (List.mem_cons_of_mem _ he) f (List.mem_cons_of_mem _ hf))
            (List.cons_ne_nil _ _) (List.cons_ne_nil _ _) hmore with ⟨htail, hxy⟩
          exact ⟨by rw [hef, htail], hxy⟩

/-- A type can be read with a comma, a bracket or nothing behind it. -/
theorem toList_text_append_inj {e f : TypeExpr} (he : e.IsPlain) (hf : f.IsPlain) :
    ∀ x y, EndsType x → EndsType y → e.text.toList ++ x = f.text.toList ++ y → e = f ∧ x = y := by
  -- An opening bracket ends a name, but not a type.
  have hopen : ∀ x, EndsName ('[' :: x) := endsName_cons (by decide)
  have hnot : ∀ x, ¬EndsType ('[' :: x) := by
    intro x h
    exact absurd (h '[' x rfl) (by decide)
  -- What follows a type is arbitrary in the induction, as an argument is followed by the rest.
  induction he generalizing f with
  | name plain =>
    intro x y hx hy h
    cases hf with
    | name plain' =>
      rcases eq_of_append_end plain plain' hx.endsName hy.endsName h with ⟨hname, hxy⟩
      exact ⟨by rw [String.toList_inj.mp hname], hxy⟩
    | apply plain' nonempty' arguments_plain' =>
      rw [toList_text_apply_append] at h
      have hrest := (eq_of_append_end plain plain' hx.endsName (hopen _) h).2
      exact absurd (hrest ▸ hx) (hnot _)
  | apply plain nonempty arguments_plain ih =>
    intro x y hx hy h
    rw [toList_text_apply_append] at h
    cases hf with
    | name plain' =>
      have hrest := (eq_of_append_end plain plain' (hopen _) hy.endsName h).2
      exact absurd (hrest ▸ hy) (hnot _)
    | apply plain' nonempty' arguments_plain' =>
      rw [toList_text_apply_append] at h
      rcases eq_of_append_end plain plain' (hopen _) (hopen _) h with ⟨hconstructor, hrest⟩
      rcases argumentChars_append_inj (fun e he f hf => ih e he (arguments_plain' f hf)) nonempty
        nonempty' (List.cons.inj hrest).2 with ⟨heq, hxy⟩
      exact ⟨by rw [String.toList_inj.mp hconstructor, heq], hxy⟩

/-- The text of a type determines it. -/
theorem text_injective {e f : TypeExpr} (he : e.IsPlain) (hf : f.IsPlain) (h : e.text = f.text) :
    e = f := by
  refine (toList_text_append_inj he hf [] [] endsType_nil endsType_nil ?_).1
  rw [h]

/-- A type is on one line. -/
theorem not_mem_text {e : TypeExpr} (he : e.IsPlain) : '\n' ∉ e.text.toList := by
  induction he with
  | name plain =>
    intro h
    exact plain _ h (by decide)
  | @apply constructor arguments plain nonempty arguments_plain ih =>
    have harguments : '\n' ∉ argumentChars arguments :=
      Text.not_mem_intercalate (by decide) (List.forall_mem_map.mpr ih)
    have hconstructor : '\n' ∉ constructor.toList := fun h => plain _ h (by decide)
    rw [toList_text_apply]
    simp only [List.mem_append, List.mem_cons, List.not_mem_nil, hconstructor, harguments]
    decide

end Text

end TypeExpr

end TypeSketch
