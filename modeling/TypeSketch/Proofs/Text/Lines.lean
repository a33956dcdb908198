import TypeSketch.Proofs.Text.Paragraphs
import TypeSketch.Text.Lines

/-!
# Reading Lines

A text of lines, each with a line feed behind it, is split into these lines. A line that
ended with a carriage return would lose it, so no line may.

A line can be blank at its start only, and then what is left of it without white space is
what stands behind its indentation.

## Main definitions

* `Text.terminated`: Lines with their line feeds.
* `Text.IsLine`: Lines that are read as they are written.
* `Text.StartsSolid`, `Text.EndsSolid`: Texts without white space at an end.
* `Text.IsIndented`: Lines that are blank at their start only.

## Theorems

* `Text.splitLines_terminated_append`: Lines are read back, with anything behind them.
* `Text.intercalate_append_newline`: Separated lines as terminated ones.
* `Text.splitLines_intercalate`: Separated lines are read back.
* `Text.trimChars_of_isIndented`: A line without its indentation.
-/

namespace TypeSketch

namespace Text

/-- The lines with a line feed behind each. -/
def terminated (lines : List (List Char)) : List Char :=
  lines.flatMap (· ++ ['\n'])

/-- The line has no line feed in it and no carriage return at its end. -/
def IsLine (line : List Char) : Prop := '\n' ∉ line ∧ line.getLast? ≠ some '\r'

/-- The text starts with something else than white space. -/
def StartsSolid (cs : List Char) : Prop := ∃ c rest, cs = c :: rest ∧ Unicode.isBlank c = false

/-- The text ends with something else than white space. -/
def EndsSolid (cs : List Char) : Prop := ∃ before c, cs = before ++ [c] ∧ Unicode.isBlank c = false

/-- The line is white space and, behind it, a text that neither starts nor ends with
    white space. -/
def IsIndented (indent body line : List Char) : Prop :=
  line = indent ++ body ∧ (∀ c ∈ indent, Unicode.isBlank c = true) ∧ StartsSolid body ∧ EndsSolid body

theorem startsSolid_cons {c : Char} (hc : Unicode.isBlank c = false) (rest : List Char) :
    StartsSolid (c :: rest) :=
  ⟨c, rest, rfl, hc⟩

theorem StartsSolid.append {cs : List Char} (h : StartsSolid cs) (more : List Char) :
    StartsSolid (cs ++ more) := by
  rcases h with ⟨c, rest, rfl, hc⟩
  exact ⟨c, rest ++ more, rfl, hc⟩

theorem endsSolid_concat {c : Char} (hc : Unicode.isBlank c = false) (before : List Char) :
    EndsSolid (before ++ [c]) :=
  ⟨before, c, rfl, hc⟩

theorem EndsSolid.append {cs : List Char} (h : EndsSolid cs) (before : List Char) :
    EndsSolid (before ++ cs) := by
  rcases h with ⟨middle, c, rfl, hc⟩
  exact ⟨before ++ middle, c, (List.append_assoc _ _ _).symm, hc⟩

theorem EndsSolid.cons {cs : List Char} (h : EndsSolid cs) (d : Char) : EndsSolid (d :: cs) :=
  h.append [d]

/-- A text without white space in it has none at its ends. -/
theorem solid_of_forall_mem {cs : List Char} (hne : cs ≠ [])
    (h : ∀ c ∈ cs, Unicode.isBlank c = false) : StartsSolid cs ∧ EndsSolid cs := by
  constructor
  · exact ⟨cs.head hne, cs.tail, (List.cons_head_tail hne).symm, h _ (List.head_mem hne)⟩
  · exact ⟨cs.dropLast, cs.getLast hne, (List.dropLast_append_getLast hne).symm,
      h _ (List.getLast_mem hne)⟩

theorem terminated_append (lines more : List (List Char)) :
    terminated (lines ++ more) = terminated lines ++ terminated more :=
  List.flatMap_append

theorem terminated_cons (line : List Char) (lines : List (List Char)) :
    terminated (line :: lines) = line ++ '\n' :: terminated lines := by
  rw [terminated, List.flatMap_cons, List.append_assoc]
  rfl

theorem intercalate_append_newline {lines : List (List Char)} (h : lines ≠ []) :
    ['\n'].intercalate lines ++ ['\n'] = terminated lines := by
  rw [← List.dropLast_append_getLast h, intercalate_concat_eq, terminated_append, List.append_assoc]
  exact congrArg _ (List.flatMap_singleton _ _).symm

section Splitting

theorem splitLines_cons {c : Char} {rest line : List Char} {lines : List (List Char)}
    (hc : c ≠ '\n') (hreturn : c = '\r' → rest.head? ≠ some '\n')
    (h : splitLines rest = line :: lines) : splitLines (c :: rest) = (c :: line) :: lines := by
  -- The last equation of `splitLines` is the one for such a character.
  rw [splitLines.eq_4 _ _ hc fun rest' heq hrest => hreturn heq (by rw [hrest]; rfl), h]

theorem splitLines_append_newline {line : List Char} (h : IsLine line) (rest : List Char) :
    splitLines (line ++ '\n' :: rest) = line :: splitLines rest := by
  induction line with
  | nil => rfl
  | cons c line ih =>
    rcases h with ⟨hline, hlast⟩
    rw [List.mem_cons, not_or] at hline
    -- The line break behind the line is the first one, as the line has none in it.
    refine splitLines_cons (Ne.symm hline.1) (fun hc => ?_) (ih ⟨hline.2, fun heq => hlast ?_⟩)
    · -- A carriage return is not the last character, and no line feed comes behind it.
      cases line with
      | nil => exact absurd (by rw [hc]; rfl) hlast
      | cons d line =>
        rw [List.mem_cons, not_or] at hline
        exact fun heq => hline.2.1 (Option.some.inj heq).symm
    · rw [List.getLast?_cons, heq]
      rfl

/-- Lines are read back, with anything behind them. -/
theorem splitLines_terminated_append {lines : List (List Char)} (h : ∀ l ∈ lines, IsLine l)
    (rest : List Char) : splitLines (terminated lines ++ rest) = lines ++ splitLines rest := by
  induction lines with
  | nil => rfl
  | cons line lines ih =>
    rw [terminated_cons, List.append_assoc, List.cons_append,
      splitLines_append_newline (h line List.mem_cons_self),
      ih fun l hl => h l (List.mem_cons_of_mem line hl), List.cons_append]

/-- A last line needs no line feed. -/
theorem splitLines_of_isLine {line : List Char} (h : IsLine line) (hne : line ≠ []) :
    splitLines line = [line] := by
  induction line with
  | nil => contradiction
  | cons c line ih =>
    rcases h with ⟨hline, hlast⟩
    rw [List.mem_cons, not_or] at hline
    cases line with
    | nil =>
      rw [splitLines.eq_4 _ _ (Ne.symm hline.1) (fun rest _ heq => by contradiction)]
      rfl
    | cons d line =>
      refine splitLines_cons (Ne.symm hline.1) (fun _ heq => ?_) (ih ⟨hline.2, ?_⟩ (List.cons_ne_nil _ _))
      · exact hline.2 (by rw [Option.some.inj heq]; exact List.mem_cons_self)
      · rwa [List.getLast?_cons_cons] at hlast

/-- Separated lines are read back, if the last one is not empty. -/
theorem splitLines_intercalate {lines : List (List Char)} {last : List Char}
    (h : ∀ l ∈ lines ++ [last], IsLine l) (hne : last ≠ []) :
    splitLines (['\n'].intercalate (lines ++ [last])) = lines ++ [last] := by
  rw [List.forall_mem_append, List.forall_mem_singleton] at h
  rw [intercalate_concat_eq]
  exact (splitLines_terminated_append h.1 last).trans
    (congrArg _ (splitLines_of_isLine h.2 hne))

end Splitting

section Trimming

variable {indent body line : List Char}

theorem trimChars_of_isIndented (h : IsIndented indent body line) : trimChars line = body := by
  rcases h with ⟨rfl, hindent, ⟨c, rest, hfirst, hc⟩, before, d, hlast, hd⟩
  have hstart : (indent ++ body).dropWhile Unicode.isBlank = body := by
    rw [List.dropWhile_append_of_pos hindent, hfirst, List.dropWhile_cons_of_neg (by simp [hc])]
  have hend : body.reverse.dropWhile Unicode.isBlank = body.reverse := by
    rw [hlast, List.reverse_append, List.reverse_singleton, List.singleton_append,
      List.dropWhile_cons_of_neg (by simp [hd])]
  rw [trimChars, hstart, hend, List.reverse_reverse]

/-- Such a line is not empty, and no carriage return is at its end. -/
theorem IsIndented.isLine (h : IsIndented indent body line) (hline : '\n' ∉ line) :
    IsLine line ∧ line ≠ [] := by
  rcases h with ⟨rfl, _, _, before, d, rfl, hd⟩
  refine ⟨⟨hline, fun heq => ?_⟩, by simp⟩
  rw [← List.append_assoc, List.getLast?_concat, Option.some.injEq] at heq
  rw [heq] at hd
  exact absurd hd (by decide)

end Trimming

end Text

end TypeSketch
