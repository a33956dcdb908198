import TypeSketch.Proofs.Names.Identifiers
import TypeSketch.Proofs.Render.DeclarationText
import TypeSketch.Proofs.Store.SignificantLines

/-!
# Lines of Declarations

Every line of a declaration counts when modules are compared. Most lines start with a
character that starts neither `import` nor `from` nor a comment, whatever is quoted
behind it. The others start with an identifier, and neither of the two words is one.

The lines of declarations one after another also tell where each starts, because its first
line starts with a name or with `class`, and its other lines with white space or with a
closing parenthesis. So comparing lines is as good as comparing declarations.

## Main definitions

* `Declaration.IsWritable`: Declarations by identifiers, with types that end.
* `Equivalence.Counts`: Lines that count, with their indentation.
* `Declaration.Opens`: How the first line of a declaration starts.

## Theorems

* `Declaration.IsWritable.counts`: Every line of a declaration counts.
* `Declaration.IsWritable.startsBlock`: Where a declaration starts.
-/

namespace TypeSketch

namespace Equivalence

open Text

/-- The line is indented, and what stands in it is neither an import nor a comment. -/
def Counts (line : List Char) : Prop :=
  ∃ indent body, IsIndented indent body line ∧ isImport body = false ∧ body.head? ≠ some '#'

variable {line : List Char}

theorem Counts.isSignificant (h : Counts line) : IsSignificant line := by
  rcases h with ⟨indent, body, hline, himport, hcomment⟩
  rw [IsSignificant, trimChars_of_isIndented hline]
  refine ⟨himport, ?_, hcomment⟩
  rcases hline with ⟨_, _, ⟨c, rest, rfl, _⟩, _⟩
  exact List.cons_ne_nil _ _

/-- A line counts if another character stands first in it than in imports and comments. -/
theorem counts_cons (indent rest : List Char) (c : Char) (hline : line = indent ++ c :: rest)
    (hindent : ∀ d ∈ indent, Unicode.isBlank d = true) (hc : Unicode.isBlank c = false)
    (hne : c ≠ 'i' ∧ c ≠ 'f' ∧ c ≠ '#') (hends : EndsSolid (c :: rest)) : Counts line :=
  ⟨indent, c :: rest, ⟨hline, hindent, startsSolid_cons hc rest, hends⟩,
    isImport_cons_eq_false hc ⟨hne.1, hne.2.1⟩, fun heq => hne.2.2 (Option.some.inj heq)⟩

/-- A line counts if its first word is not that of an import. -/
theorem counts_word (indent word rest : List Char) (hline : line = indent ++ (word ++ ' ' :: rest))
    (hindent : ∀ d ∈ indent, Unicode.isBlank d = true)
    (hword : ∀ d ∈ word, Unicode.isBlank d = false) (hne : word ≠ [])
    (himport : word ≠ "import".toList ∧ word ≠ "from".toList) (hcomment : word.head? ≠ some '#')
    (hends : EndsSolid rest) : Counts line := by
  have hfirst : firstWord (word ++ ' ' :: rest) = word := firstWord_append hword (by decide)
  refine ⟨indent, word ++ ' ' :: rest, ⟨hline, hindent, (solid_of_forall_mem hne hword).1.append _,
    (hends.cons ' ').append word⟩, isImport_eq_false ?_ ?_, ?_⟩
  · rw [hfirst]
    exact himport.1
  · rw [hfirst]
    exact himport.2
  · rwa [List.head?_append_of_ne_nil _ hne]

end Equivalence

namespace Declaration

open Naming Text TypeSketch.Equivalence
open Imports (tab)

/-- The line starts neither with white space nor with a closing parenthesis. -/
def Opens (line : List Char) : Prop := line.head? ≠ some ' ' ∧ line.head? ≠ some ')'

/-- The declared name is an identifier, and so are the fields of a class; no type ends with
    white space. -/
def IsWritable : Declaration → Prop
  | aliasOf name type => isIdentifier name = true ∧ EndsSolid type.text.toList
  | record name _ fields => isIdentifier name = true ∧
    ∀ f ∈ fields, isIdentifier f.1 = true ∧ EndsSolid f.2.text.toList
  | functionalRecord name _ => isIdentifier name = true

section Words

variable {name : String} {line : List Char}

theorem forall_mem_isIdentifier (h : isIdentifier name = true) :
    name.toList ≠ [] ∧ ∀ c ∈ name.toList, Unicode.isBlank c = false ∧ c ≠ '#' ∧ c ≠ ')' := by
  rcases (isIdentifier_iff.mp h).1 with ⟨first, tail, hchars, hfirst⟩
  have hcontinues := (isIdentifier_iff.mp h).2.1
  rw [Continues, hchars] at hcontinues
  rw [hchars]
  refine ⟨List.cons_ne_nil _ _, fun c hc => ?_⟩
  -- A character of an identifier may start one or go on in one, so it is none of these.
  have hclass : c = '_' ∨ Unicode.isIdentifierStart c = true ∨ Unicode.isIdentifierContinue c = true := by
    rcases List.mem_cons.mp hc with rfl | hc
    · exact hfirst.imp_right Or.inl
    · exact Or.inr (Or.inr (hcontinues c hc))
  have hother : ∀ {d : Char}, d ≠ '_' → Unicode.isIdentifierStart d = false →
      Unicode.isIdentifierContinue d = false → c ≠ d := by
    rintro d hd hstart hcontinue rfl
    rcases hclass with h | h | h
    · exact hd h
    · rw [hstart] at h
      contradiction
    · rw [hcontinue] at h
      contradiction
  refine ⟨?_, hother (by decide) (by decide) (by decide),
    hother (by decide) (by decide) (by decide)⟩
  -- A blank character is in neither of the two classes, and it is no underscore.
  by_contra hblank
  rw [Bool.not_eq_false] at hblank
  rcases Unicode.not_identifier_of_isBlank hblank with ⟨hstart, hcontinue⟩
  refine hother ?_ hstart hcontinue rfl
  rintro rfl
  exact absurd hblank (by decide)

theorem head?_isIdentifier (h : isIdentifier name = true) (rest : List Char) :
    (name.toList ++ rest).head? ≠ some '#' ∧ Opens (name.toList ++ rest) := by
  rcases forall_mem_isIdentifier h with ⟨hne, hchars⟩
  cases hname : name.toList with
  | nil => contradiction
  | cons c cs =>
    rcases hchars c (by rw [hname]; exact List.mem_cons_self) with ⟨hblank, hcomment, hclose⟩
    refine ⟨fun heq => hcomment (Option.some.inj heq), fun heq => ?_,
      fun heq => hclose (Option.some.inj heq)⟩
    rw [Option.some.inj heq] at hblank
    exact absurd hblank (by decide)

/-- A line that starts with an identifier counts. -/
theorem counts_name (rest : List Char) (h : isIdentifier name = true)
    (hline : line = name.toList ++ ' ' :: rest)
    (hends : EndsSolid rest) : Counts line := by
  rcases forall_mem_isIdentifier h with ⟨hne, hchars⟩
  have hreserved : name ∉ keywords := (isIdentifier_iff.mp h).2.2
  refine counts_word [] name.toList rest hline (by simp) (fun c hc => (hchars c hc).1) hne ⟨?_, ?_⟩ ?_ hends
  · intro heq
    exact hreserved (by rw [String.toList_inj.mp heq]; decide)
  · intro heq
    exact hreserved (by rw [String.toList_inj.mp heq]; decide)
  · have hhead := (head?_isIdentifier h []).1
    rwa [List.append_nil] at hhead

/-- The line of a field in a class counts: its first word ends with a colon. -/
theorem counts_fieldLine {f : String × TypeExpr} (h : isIdentifier f.1 = true)
    (hends : EndsSolid f.2.text.toList) : Counts (fieldLine f) := by
  rcases forall_mem_isIdentifier h with ⟨hne, hchars⟩
  -- The first word of the line ends with the colon, so it is none of the two keywords.
  have hcolon : ∀ {word : List Char}, ':' ∉ word → f.1.toList ++ [':'] ≠ word := by
    rintro word hword rfl
    exact hword (List.mem_append_right _ List.mem_cons_self)
  refine counts_word tab.toList (f.1.toList ++ [':']) f.2.text.toList
    ?_ isBlank_of_mem_tab ?_ (List.append_ne_nil_of_left_ne_nil hne _)
    ⟨hcolon (by decide), hcolon (by decide)⟩ (head?_isIdentifier h _).1 hends
  · rw [fieldLine_eq, List.append_assoc]
    rfl
  · intro c hc
    rcases List.mem_append.mp hc with hc | hc
    · exact (hchars c hc).1
    · rw [List.mem_singleton.mp hc]
      decide

/-- A line that starts with a quote counts, whatever the quoted text is. -/
theorem counts_quoted (indent rest : List Char) (hline : line = indent ++ '"' :: rest)
    (hindent : ∀ d ∈ indent, Unicode.isBlank d = true) (hends : EndsSolid rest) : Counts line :=
  counts_cons indent rest '"' hline hindent (by decide) (by decide) (hends.cons '"')

theorem counts_rowLine (f : String × TypeExpr) : Counts (rowLine f) := by
  refine counts_quoted (tab.toList ++ tab.toList)
    ((Text.escape f.1).toList ++ '"' :: ':' :: ' ' :: f.2.text.toList ++ [',']) ?_
    (List.forall_mem_append.mpr ⟨isBlank_of_mem_tab, isBlank_of_mem_tab⟩)
    (endsSolid_concat (by decide) _)
  simp [rowLine_eq]

theorem counts_openingLines (doc : Option String) (fields : List (String × TypeExpr)) :
    ∀ l ∈ openingLines doc fields, Counts l := by
  intro l hl
  unfold openingLines at hl
  split at hl
  · next doc =>
    rw [List.mem_singleton.mp hl]
    refine counts_quoted tab.toList
      ('"' :: '"' :: (Text.escape doc).toList ++ ['"', '"'] ++ ['"']) ?_ isBlank_of_mem_tab
      (endsSolid_concat (by decide) _)
    simp [String.toList_append]
  · split at hl
    · rw [List.mem_singleton.mp hl]
      exact counts_cons tab.toList ['a', 's', 's'] 'p' (by decide)
        isBlank_of_mem_tab (by decide) (by decide) (endsSolid_concat (by decide) ['p', 'a', 's'])
    · exact absurd hl List.not_mem_nil

/-- The first lines of records count. -/
theorem counts_classLine (name : String) : Counts ("class " ++ name ++ "(TypedDict):").toList := by
  refine counts_cons [] ("lass ".toList ++ name.toList ++ "(TypedDict)".toList ++ [':']) 'c' ?_
    (by simp) (by decide)
    (by decide) ((endsSolid_concat (by decide) _).cons 'c')
  simp [String.toList_append]

theorem counts_functionalLine (h : isIdentifier name = true) :
    Counts (name ++ " = TypedDict(").toList := by
  refine counts_name ("= TypedDict".toList ++ ['(']) h ?_ (endsSolid_concat (by decide) _)
  simp [String.toList_append]

end Words

variable {d : Declaration}

/-- Every line of a declaration counts. -/
theorem IsWritable.counts (h : d.IsWritable) : ∀ l ∈ d.lines, Counts l := by
  intro l hl
  cases d with
  | aliasOf name type =>
    rw [List.mem_singleton.mp hl]
    refine counts_name ('=' :: ' ' :: type.text.toList) h.1 ?_ ((h.2.cons ' ').cons '=')
    simp [String.toList_append]
  | record name doc fields =>
    rw [lines, List.mem_cons, List.mem_append] at hl
    -- The class line, the documentation or `pass`, and the fields.
    rcases hl with rfl | hl | hl
    · exact counts_classLine name
    · exact counts_openingLines doc fields l hl
    · rcases List.mem_map.mp hl with ⟨f, hf, rfl⟩
      rcases h.2 f hf with ⟨hkey, htype⟩
      exact counts_fieldLine hkey htype
  | functionalRecord name fields =>
    simp only [lines, List.mem_append, List.mem_cons, List.not_mem_nil, or_false] at hl
    rcases hl with (((rfl | rfl | rfl) | hl) | rfl) | rfl
    -- The lines come in the order in which they are written.
    · exact counts_functionalLine h
    · refine counts_quoted tab.toList (name.toList ++ ['"'] ++ [',']) ?_
        isBlank_of_mem_tab (endsSolid_concat (by decide) _)
      simp [String.toList_append]
    · exact counts_cons tab.toList [] '\x7b' (by decide)
        isBlank_of_mem_tab (by decide) (by decide) (endsSolid_concat (by decide) [])
    · rcases List.mem_map.mp hl with ⟨f, _, rfl⟩
      exact counts_rowLine f
    · exact counts_cons tab.toList [','] '\x7d' (by decide)
        isBlank_of_mem_tab (by decide) (by decide) (endsSolid_concat (by decide) ['\x7d'])
    · exact counts_cons [] [] ')' (by decide) (by simp) (by decide)
        (by decide) (endsSolid_concat (by decide) [])

theorem not_opens_tab (rest : List Char) : ¬Opens (tab.toList ++ rest) :=
  fun h => h.1 rfl

/-- A declaration starts with the line that is not indented. -/
theorem IsWritable.startsBlock (h : d.IsWritable) : StartsBlock Opens d.lines := by
  cases d with
  | aliasOf name type =>
    refine ⟨_, [], rfl, ?_, fun _ hc => absurd hc List.not_mem_nil⟩
    rw [String.append_assoc, String.toList_append]
    exact (head?_isIdentifier h.1 _).2
  -- A record begins with its class line, and everything behind that line is indented.
  | record name doc fields =>
    refine ⟨_, _, rfl, ?_, fun l hl => ?_⟩
    · rw [String.append_assoc, String.toList_append]
      exact ⟨by simp, by simp⟩
    · rcases List.mem_append.mp hl with hl | hl
      · unfold openingLines at hl
        split at hl
        · rw [List.mem_singleton.mp hl, String.append_assoc, String.append_assoc, String.toList_append]
          exact not_opens_tab _
        · split at hl
          · rw [List.mem_singleton.mp hl, String.toList_append]
            exact not_opens_tab _
          · exact absurd hl List.not_mem_nil
      · rcases List.mem_map.mp hl with ⟨f, _, rfl⟩
        rw [fieldLine_eq]
        exact not_opens_tab _
  -- All but the first and the last line are indented, and the last one is a parenthesis.
  | functionalRecord name fields =>
    refine ⟨_, [(tab ++ "\"" ++ name ++ "\",").toList, (tab ++ "\x7b").toList] ++
      fields.map rowLine ++ [(tab ++ "\x7d,").toList] ++ [[')']], rfl, ?_, fun l hl => ?_⟩
    · rw [String.toList_append]
      exact (head?_isIdentifier h _).2
    · simp only [List.mem_append, List.mem_cons, List.not_mem_nil, or_false] at hl
      rcases hl with (((rfl | rfl) | hl) | rfl) | rfl
      · rw [String.append_assoc, String.append_assoc, String.toList_append]
        exact not_opens_tab _
      · rw [String.toList_append]
        exact not_opens_tab _
      · rcases List.mem_map.mp hl with ⟨f, _, rfl⟩
        rw [rowLine_eq]
        exact not_opens_tab _
      · rw [String.toList_append]
        exact not_opens_tab _
      · exact fun h => h.2 rfl

end Declaration

end TypeSketch
