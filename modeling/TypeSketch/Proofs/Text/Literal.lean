import Mathlib.Data.List.Basic
import TypeSketch.Proofs.Lists.Delimited
import TypeSketch.Text.Literal

/-!
# Reading Literals

A literal can be read back: what is written between the quotes of a string determines the
text, and the literal ends at the first quote that is not escaped. A literal has no line
feed in it, so it is on one line.

A character is written in one of three ways, and what follows a backslash tells which:
another backslash, a quote or a letter for the characters with a short form, an `x` for
the other control characters. A character that is written as itself is no backslash.

## Main definitions

* `Text.shortForms`: The characters that are written with a letter.

## Theorems

* `Text.escapeChar_cases`: How a character is written.
* `Text.delimited_escapeChar`: A character can be read with anything behind it.
* `Text.escape_append_quote_inj`: A literal can be read with anything behind it.
* `Text.not_mem_escape`: A literal is on one line.
-/

namespace TypeSketch

namespace Text

/-- The characters that are written as a backslash and one more character, with that one. -/
def shortForms : List (Char × Char) :=
  [('\\', '\\'), ('"', '"'), ('\n', 'n'), ('\r', 'r'), ('\t', 't')]

theorem toNat_lt_of_isControl {c : Char} (h : Unicode.isControl c = true) : c.toNat < 256 := by
  by_contra hlarge
  simp only [Unicode.isControl, Unicode.inRanges] at h
  rw [if_neg (by omega), if_neg (by omega), if_neg (by omega), if_neg (by omega)] at h
  exact Bool.false_ne_true h

/-- A character has a short form, is a control character without one, or is written as
    itself. -/
theorem escapeChar_cases (c : Char) :
    (∃ d, (c, d) ∈ shortForms ∧ escapeChar c = ['\\', d]) ∨
      (c.toNat < 256 ∧
        escapeChar c = ['\\', 'x', Nat.digitChar (c.toNat / 16), Nat.digitChar (c.toNat % 16)]) ∨
      (c ≠ '\\' ∧ c ≠ '"' ∧ c ≠ '\n' ∧ escapeChar c = [c]) := by
  by_cases hshort : ∃ d, (c, d) ∈ shortForms
  · rcases hshort with ⟨d, hd⟩
    refine Or.inl ⟨d, hd, ?_⟩
    simp only [shortForms, List.mem_cons, Prod.mk.injEq, List.not_mem_nil, or_false] at hd
    rcases hd with ⟨rfl, rfl⟩ | ⟨rfl, rfl⟩ | ⟨rfl, rfl⟩ | ⟨rfl, rfl⟩ | ⟨rfl, rfl⟩ <;> rfl
  · simp only [shortForms, List.mem_cons, Prod.mk.injEq, List.not_mem_nil, or_false, exists_or,
      exists_eq_right, not_or] at hshort
    have hchar : escapeChar c = if Unicode.isControl c then
        ['\\', 'x', Nat.digitChar (c.toNat / 16), Nat.digitChar (c.toNat % 16)] else [c] := by
      unfold escapeChar
      split <;> simp_all
    -- Without a short form, a character is written by its code if it is a control character.
    by_cases hcontrol : Unicode.isControl c = true
    · rw [hchar, if_pos hcontrol]
      exact Or.inr (Or.inl ⟨toNat_lt_of_isControl hcontrol, rfl⟩)
    · rw [hchar, if_neg hcontrol]
      exact Or.inr (Or.inr ⟨by simp_all, by simp_all, by simp_all, rfl⟩)

/-- The digits below sixteen differ. -/
theorem digitChar_injective : ∀ a < 16, ∀ b < 16, Nat.digitChar a = Nat.digitChar b → a = b := by
  decide

theorem eq_of_digits_eq {c d : Char} (hc : c.toNat < 256) (hd : d.toNat < 256)
    (hhigh : Nat.digitChar (c.toNat / 16) = Nat.digitChar (d.toNat / 16))
    (hlow : Nat.digitChar (c.toNat % 16) = Nat.digitChar (d.toNat % 16)) : c = d := by
  have hhigh' := digitChar_injective _ (by omega) _ (by omega) hhigh
  have hlow' := digitChar_injective _ (by omega) _ (by omega) hlow
  apply Char.toNat_inj.mp
  omega

/-- A written character can be read with anything behind it. -/
theorem delimited_escapeChar : Delimited escapeChar := by
  intro c d x y h
  -- A short form is no `x`, and it has one character only.
  have hshort : ∀ c d e, (c, e) ∈ shortForms → (d, e) ∈ shortForms → c = d := by
    simp only [shortForms, List.mem_cons, Prod.mk.injEq, List.not_mem_nil, or_false]
    rintro c d e (⟨rfl, rfl⟩ | ⟨rfl, rfl⟩ | ⟨rfl, rfl⟩ | ⟨rfl, rfl⟩ | ⟨rfl, rfl⟩) <;> simp_all
  have hx : ∀ c, (c, 'x') ∉ shortForms := by
    intro c hc
    simp [shortForms] at hc
  -- The two ways of writing differ in their first two characters, or they are the same way.
  rcases escapeChar_cases c with ⟨e, he, hc⟩ | ⟨hsmall, hc⟩ | ⟨hslash, _, _, hc⟩ <;>
    rcases escapeChar_cases d with ⟨e', he', hd⟩ | ⟨hsmall', hd⟩ | ⟨hslash', _, _, hd⟩ <;>
    rw [hc, hd] at h <;>
    simp only [List.cons_append, List.nil_append, List.cons.injEq, true_and] at h
  · exact ⟨hshort c d e he (h.1 ▸ he'), h.2⟩
  · rw [h.1] at he
    exact absurd he (hx c)
  · exact absurd h.1.symm hslash'
  · rw [← h.1] at he'
    exact absurd he' (hx d)
  · exact ⟨eq_of_digits_eq hsmall hsmall' h.1 h.2.1, h.2.2⟩
  · exact absurd h.1.symm hslash'
  · exact absurd h.1 hslash
  · exact absurd h.1 hslash
  · exact h

/-- A literal can be read with anything behind its quote. -/
theorem escape_append_quote_inj {s t : String} {x y : List Char}
    (h : (escape s).toList ++ '"' :: x = (escape t).toList ++ '"' :: y) : s = t ∧ x = y := by
  rw [escape, escape, String.toList_ofList, String.toList_ofList] at h
  have hquote : ∀ c x, escapeChar c ≠ '"' :: x := by
    intro c x heq
    rcases escapeChar_cases c with ⟨d, _, hc⟩ | ⟨_, hc⟩ | ⟨_, hother, _, hc⟩ <;>
      rw [hc, List.cons.injEq] at heq
    · exact absurd heq.1 (by decide)
    · exact absurd heq.1 (by decide)
    · exact hother heq.1
  have hempty : ∀ c, escapeChar c ≠ [] := by
    intro c heq
    rcases escapeChar_cases c with ⟨d, _, hc⟩ | ⟨_, hc⟩ | ⟨_, _, _, hc⟩ <;> rw [hc] at heq <;>
      contradiction
  -- No escaped character begins with a quote, so the first one ends both texts.
  rcases delimited_escapeChar.flatMap_append_terminator_inj hquote hempty h with ⟨hchars, hxy⟩
  exact ⟨String.toList_inj.mp hchars, hxy⟩

/-- A literal is on one line. -/
theorem not_mem_escape (s : String) : '\n' ∉ (escape s).toList := by
  have hdigit : ∀ a < 16, Nat.digitChar a ≠ '\n' := by decide
  rw [escape, String.toList_ofList, List.mem_flatMap]
  rintro ⟨c, _, hc⟩
  rcases escapeChar_cases c with ⟨d, hd, heq⟩ | ⟨hsmall, heq⟩ | ⟨_, _, hother, heq⟩ <;>
    rw [heq] at hc <;> simp only [List.mem_cons, List.not_mem_nil, or_false] at hc
  -- A line feed has a short form, so it is written in none of the three ways.
  · rcases hc with hc | rfl
    · exact absurd hc (by decide)
    · simp [shortForms] at hd
  · rcases hc with hc | hc | hc | hc
    · exact absurd hc (by decide)
    · exact absurd hc (by decide)
    · exact hdigit _ (by omega) hc.symm
    · exact hdigit _ (by omega) hc.symm
  · exact hother hc.symm

end Text

end TypeSketch
