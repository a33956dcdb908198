import TypeSketch.Declaration
import TypeSketch.Proofs.Render.TypeText
import TypeSketch.Proofs.Text.Literal
import TypeSketch.Proofs.Text.Paragraphs

/-!
# Reading Declarations

The text of declarations determines them up to the documentation of records. A
declaration is a paragraph: none of its lines is empty, and nothing in it is written with
a line feed, because names are plain and texts are escaped. So the declarations end at the
empty lines, and the lines of one tell what it is.

An alias has one line, and records have more. The first line of a class ends with a colon
and that of an assignment with a parenthesis. In the body of a class a field starts with a
plain name, so it is neither documentation, which starts with a quote, nor `pass`, which
is followed by nothing.

## Main definitions

* `Declaration.IsPlain`: Declarations with plain names and types.
* `Declaration.undocumented`: A declaration without documentation.
* `Declaration.lines`: The lines of a declaration.

## Theorems

* `Declaration.toList_text`: The text is that of the lines.
* `Declaration.lines_spec`: A declaration is a paragraph.
* `Declaration.undocumented_eq_of_lines_eq`: The lines determine the declaration.
* `Declaration.undocumented_eq_of_text_eq`: The text of all determines each.
-/

namespace TypeSketch

namespace Declaration

open Imports (tab)
open Naming TypeExpr

/-- All names and types in the declaration are plain. The keys of an assignment are
    literals and can be any texts. -/
def IsPlain : Declaration → Prop
  | aliasOf name type => Naming.IsPlain name ∧ type.IsPlain
  | record name _ fields =>
    Naming.IsPlain name ∧ ∀ f ∈ fields, Naming.IsPlain f.1 ∧ f.2.IsPlain
  | functionalRecord name fields => Naming.IsPlain name ∧ ∀ f ∈ fields, f.2.IsPlain

/-- The declaration without documentation. -/
def undocumented : Declaration → Declaration
  | record name _ fields => record name none fields
  | other => other

/-- The line of a field in a class. -/
def fieldLine (f : String × TypeExpr) : List Char := (tab ++ f.1 ++ ": " ++ f.2.text).toList

/-- The line of a field in an assignment. -/
def rowLine (f : String × TypeExpr) : List Char :=
  (tab ++ tab ++ "\"" ++ Text.escape f.1 ++ "\": " ++ f.2.text ++ ",").toList

/-- The lines in a class before its fields. -/
def openingLines (doc : Option String) (fields : List (String × TypeExpr)) : List (List Char) :=
  match doc with
  | some doc => [(tab ++ "\"\"\"" ++ Text.escape doc ++ "\"\"\"").toList]
  | none => if fields.isEmpty then [(tab ++ "pass").toList] else []

/-- The lines of a declaration. -/
def lines : Declaration → List (List Char)
  | aliasOf name type => [(name ++ " = " ++ type.text).toList]
  | record name doc fields =>
    ("class " ++ name ++ "(TypedDict):").toList :: (openingLines doc fields ++ fields.map fieldLine)
  | functionalRecord name fields =>
    [(name ++ " = TypedDict(").toList, (tab ++ "\"" ++ name ++ "\",").toList,
      (tab ++ "\x7b").toList] ++ fields.map rowLine ++ [(tab ++ "\x7d,").toList] ++ [[')']]

section Lines

/-- The text of a declaration is that of its lines. -/
theorem toList_text (d : Declaration) : d.text.toList = ['\n'].intercalate d.lines := by
  cases d with
  | aliasOf name type => rw [lines, List.intercalate_singleton]; rfl
  | record name doc fields =>
    unfold Declaration.text bodyText
    rw [lines, Text.intercalate_cons_eq, List.flatMap_append]
    unfold openingLines
    -- The lines of a class are its first one, those of the documentation and one for each field.
    cases doc with
    | some doc => simp [fieldLine, String.toList_append, String.toList_join, List.flatMap_map]
    | none =>
      dsimp only
      split <;> simp [fieldLine, String.toList_append, String.toList_join, List.flatMap_map]
  | functionalRecord name fields =>
    unfold Declaration.text
    rw [lines, Text.intercalate_concat_eq]
    simp [rowLine, String.toList_append, String.toList_join, List.flatMap_map]

/-- Declarations with empty lines between them are paragraphs. -/
theorem toList_texts (ds : List Declaration) :
    ("\n\n".intercalate (ds.map (·.text))).toList =
      ['\n', '\n'].intercalate ((ds.map lines).map (['\n'].intercalate ·)) := by
  rw [String.toList_intercalate, List.map_map, List.map_map]
  exact congrArg _ (List.map_congr_left fun d _ => toList_text d)

/-- A declaration is a paragraph. -/
theorem lines_spec {d : Declaration} (h : d.IsPlain) :
    d.lines ≠ [] ∧ ∀ l ∈ d.lines, l ≠ [] ∧ '\n' ∉ l := by
  have hname : ∀ {n : String}, Naming.IsPlain n → '\n' ∉ n.toList := fun hn hc => hn _ hc (by decide)
  have htab : '\n' ∉ tab.toList := by decide
  -- Names, types and escaped texts have no line breaks, and every line has more than what it takes
  -- from the declaration.
  cases d with
  | aliasOf name type =>
    refine ⟨List.cons_ne_nil _ _, fun l hl => ?_⟩
    rw [lines, List.mem_singleton] at hl
    rw [hl]
    have htype := not_mem_text h.2
    simp [String.toList_append, hname h.1, htype]
  | record name doc fields =>
    refine ⟨List.cons_ne_nil _ _, fun l hl => ?_⟩
    rw [lines, List.mem_cons, List.mem_append] at hl
    rcases hl with rfl | hl | hl
    · simp [String.toList_append, hname h.1]
    · unfold openingLines at hl
      split at hl
      · next doc =>
        rw [List.mem_singleton.mp hl]
        simp [String.toList_append, Text.not_mem_escape doc, htab]
      · split at hl
        · rw [List.mem_singleton.mp hl]
          decide
        · exact absurd hl List.not_mem_nil
    · rcases List.mem_map.mp hl with ⟨f, hf, rfl⟩
      rcases h.2 f hf with ⟨hkey, htype⟩
      simp [fieldLine, String.toList_append, hname hkey, not_mem_text htype, htab]
  | functionalRecord name fields =>
    refine ⟨List.cons_ne_nil _ _, fun l hl => ?_⟩
    simp only [lines, List.mem_append, List.mem_cons, List.not_mem_nil, or_false] at hl
    rcases hl with (((rfl | rfl | rfl) | hl) | rfl) | rfl
    · simp [String.toList_append, hname h.1]
    · simp [String.toList_append, hname h.1, htab]
    · decide
    · rcases List.mem_map.mp hl with ⟨f, hf, rfl⟩
      simp [rowLine, String.toList_append, Text.not_mem_escape f.1, not_mem_text (h.2 f hf), htab]
    · decide
    · decide

end Lines

section Reading

theorem fieldLine_eq (f : String × TypeExpr) :
    fieldLine f = tab.toList ++ (f.1.toList ++ ':' :: ' ' :: f.2.text.toList) := by
  simp [fieldLine, String.toList_append]

theorem rowLine_eq (f : String × TypeExpr) :
    rowLine f = tab.toList ++ (tab.toList ++
      '"' :: ((Text.escape f.1).toList ++ '"' :: ':' :: ' ' :: (f.2.text.toList ++ [',']))) := by
  simp [rowLine, String.toList_append]

/-- The line of a field in a class determines the field. -/
theorem fieldLine_injective {f g : String × TypeExpr} (hf : Naming.IsPlain f.1 ∧ f.2.IsPlain)
    (hg : Naming.IsPlain g.1 ∧ g.2.IsPlain) (h : fieldLine f = fieldLine g) : f = g := by
  -- A key ends at the colon, since no plain name has one.
  have hcolon : ∀ x, EndsName (':' :: x) := endsName_cons (by decide)
  rw [fieldLine_eq, fieldLine_eq] at h
  rcases eq_of_append_end hf.1 hg.1 (hcolon _) (hcolon _) (List.append_cancel_left h) with
    ⟨hkey, hrest⟩
  have htype := (List.cons.inj (List.cons.inj hrest).2).2
  exact Prod.ext (String.toList_inj.mp hkey) (text_injective hf.2 hg.2 (String.toList_inj.mp htype))

/-- The line of a field in an assignment determines the field. -/
theorem rowLine_injective {f g : String × TypeExpr} (hf : f.2.IsPlain) (hg : g.2.IsPlain)
    (h : rowLine f = rowLine g) : f = g := by
  -- A literal ends at the first quote that is not escaped.
  rw [rowLine_eq, rowLine_eq] at h
  have hquoted := (List.cons.inj (List.append_cancel_left (List.append_cancel_left h))).2
  rcases Text.escape_append_quote_inj hquoted with ⟨hkey, hrest⟩
  have htype := List.append_cancel_right (List.cons.inj (List.cons.inj hrest).2).2
  exact Prod.ext hkey (text_injective hf hg (String.toList_inj.mp htype))

/-- The lines before the fields are none or one, and that one is no line of a field. -/
theorem openingLines_cases (doc : Option String) (fields : List (String × TypeExpr)) :
    openingLines doc fields = [] ∨ ∃ l, openingLines doc fields = [l] ∧
      ∀ f : String × TypeExpr, Naming.IsPlain f.1 → fieldLine f ≠ l := by
  unfold openingLines
  split
  · next doc =>
    refine Or.inr ⟨_, rfl, fun f hf h => ?_⟩
    have hdoc : (tab ++ "\"\"\"" ++ Text.escape doc ++ "\"\"\"").toList =
        tab.toList ++ '"' :: '"' :: '"' :: ((Text.escape doc).toList ++ ['"', '"', '"']) := by
      simp [String.toList_append]
    rw [fieldLine_eq, hdoc] at h
    have hstart := List.append_cancel_left h
    -- A key that started with a quote would not be plain, and a colon is no quote.
    cases hkey : f.1.toList with
    | nil =>
      rw [hkey] at hstart
      exact absurd (List.cons.inj hstart).1 (by decide)
    | cons c rest =>
      rw [hkey] at hstart
      refine hf c (by rw [hkey]; exact List.mem_cons_self) ?_
      rw [(List.cons.inj hstart).1]
      decide
  · split
    -- The line of a field has a colon, and `pass` has none.
    · refine Or.inr ⟨_, rfl, fun f _ h => ?_⟩
      rw [fieldLine_eq, String.toList_append] at h
      have hcolon : ':' ∈ "pass".toList := by
        rw [← List.append_cancel_left h]
        exact List.mem_append_right _ List.mem_cons_self
      exact absurd hcolon (by decide)
    · exact Or.inl rfl

/-- The lines of fields determine them, if each line does. -/
theorem eq_of_map_eq {line : String × TypeExpr → List Char} {fields fields' : List (String × TypeExpr)}
    (hinj : ∀ f ∈ fields, ∀ g ∈ fields', line f = line g → f = g)
    (h : fields.map line = fields'.map line) : fields = fields' := by
  induction fields generalizing fields' with
  | nil => exact (List.map_eq_nil_iff.mp h.symm).symm
  | cons f rest ih =>
    cases fields' with
    | nil => contradiction
    | cons g rest' =>
      rw [List.map_cons, List.map_cons, List.cons.injEq] at h
      have hrest := ih (fun f hf g hg => hinj f (List.mem_cons_of_mem _ hf) g (List.mem_cons_of_mem _ hg))
        h.2
      rw [hinj f List.mem_cons_self g List.mem_cons_self h.1, hrest]

/-- The body of a class determines the fields. -/
theorem fields_eq_of_body_eq {doc doc' : Option String} {fields fields' : List (String × TypeExpr)}
    (hf : ∀ f ∈ fields, Naming.IsPlain f.1 ∧ f.2.IsPlain)
    (hg : ∀ f ∈ fields', Naming.IsPlain f.1 ∧ f.2.IsPlain)
    (h : openingLines doc fields ++ fields.map fieldLine =
      openingLines doc' fields' ++ fields'.map fieldLine) : fields = fields' := by
  have hmap : fields.map fieldLine = fields'.map fieldLine → fields = fields' :=
    eq_of_map_eq fun f hmem g hmem' => fieldLine_injective (hf f hmem) (hg g hmem')
  -- A line that opens the one body would be the line of the first field of the other.
  rcases openingLines_cases doc fields with hopen | ⟨l, hopen, hl⟩ <;>
    rcases openingLines_cases doc' fields' with hopen' | ⟨l', hopen', hl'⟩ <;>
    rw [hopen, hopen'] at h
  · exact hmap h
  · cases fields with
    | nil => contradiction
    | cons f rest => exact absurd (List.cons.inj h).1 (hl' f (hf f List.mem_cons_self).1)
  · cases fields' with
    | nil => contradiction
    | cons g rest => exact absurd (List.cons.inj h).1.symm (hl g (hg g List.mem_cons_self).1)
  · exact hmap (List.cons.inj h).2

/-- A class has a line besides the first one. -/
theorem body_ne_nil (doc : Option String) (fields : List (String × TypeExpr)) :
    openingLines doc fields ++ fields.map fieldLine ≠ [] := by
  cases fields with
  | nil => cases doc <;> exact List.cons_ne_nil _ _
  | cons f rest => exact List.append_ne_nil_of_right_ne_nil _ (List.cons_ne_nil _ _)

/-- The first lines of a class and of an assignment end differently. -/
theorem class_line_ne (name other : String) :
    ("class " ++ name ++ "(TypedDict):").toList ≠ (other ++ " = TypedDict(").toList := by
  intro h
  have hcolon : "(TypedDict):".toList.getLast? = some ':' := by decide
  have hparenthesis : " = TypedDict(".toList.getLast? = some '(' := by decide
  have hlast := congrArg List.getLast? h
  simp only [String.toList_append, List.getLast?_append, hcolon, hparenthesis, Option.some_or,
    Option.some.injEq] at hlast
  exact absurd hlast (by decide)

/-- The lines of a declaration determine it up to documentation. -/
theorem undocumented_eq_of_lines_eq {d e : Declaration} (hd : d.IsPlain) (he : e.IsPlain)
    (h : d.lines = e.lines) : d.undocumented = e.undocumented := by
  cases d with
  | aliasOf name type =>
    cases e with
    | aliasOf name' type' =>
      have hblank : ∀ x, EndsName (' ' :: x) := endsName_cons (by decide)
      have hline : name.toList ++ ' ' :: '=' :: ' ' :: type.text.toList =
          name'.toList ++ ' ' :: '=' :: ' ' :: type'.text.toList := by
        have hfirst := (List.cons.inj h).1
        simpa [String.toList_append] using hfirst
      rcases eq_of_append_end hd.1 he.1 (hblank _) (hblank _) hline with ⟨hname, hrest⟩
      have htext := (List.cons.inj (List.cons.inj (List.cons.inj hrest).2).2).2
      rw [String.toList_inj.mp hname, text_injective hd.2 he.2 (String.toList_inj.mp htext)]
    -- An alias has one line and the others have more.
    | record name' doc' fields' => exact absurd (List.cons.inj h).2.symm (body_ne_nil doc' fields')
    | functionalRecord name' fields' => exact absurd (List.cons.inj h).2 (List.cons_ne_nil _ _).symm
  | record name doc fields =>
    cases e with
    | aliasOf name' type' => exact absurd (List.cons.inj h).2 (body_ne_nil doc fields)
    | record name' doc' fields' =>
      rcases List.cons.inj h with ⟨hfirst, hbody⟩
      simp only [String.toList_append, List.append_assoc] at hfirst
      have hname := List.append_cancel_right (List.append_cancel_left hfirst)
      rw [undocumented, undocumented, String.toList_inj.mp hname, fields_eq_of_body_eq hd.2 he.2 hbody]
    | functionalRecord name' fields' => exact absurd (List.cons.inj h).1 (class_line_ne name name')
  | functionalRecord name fields =>
    cases e with
    | aliasOf name' type' => exact absurd (List.cons.inj h).2 (List.cons_ne_nil _ _)
    | record name' doc' fields' => exact absurd (List.cons.inj h).1.symm (class_line_ne name' name)
    | functionalRecord name' fields' =>
      -- The first line has the name, the last two are always the same, and the rows between them
      -- are the fields.
      have hrows := List.append_cancel_right (List.append_cancel_right h)
      rcases List.cons.inj hrows with ⟨hfirst, hrest⟩
      rw [String.toList_append, String.toList_append] at hfirst
      have hname := List.append_cancel_right hfirst
      have hfields := (List.cons.inj (List.cons.inj hrest).2).2
      rw [String.toList_inj.mp hname,
        eq_of_map_eq (fun f hf g hg => rowLine_injective (hd.2 f hf) (he.2 g hg)) hfields]

/-- The text of declarations determines them up to documentation. -/
theorem undocumented_eq_of_text_eq {ds es : List Declaration} (hd : ∀ d ∈ ds, d.IsPlain)
    (he : ∀ e ∈ es, e.IsPlain) (hds : ds ≠ []) (hes : es ≠ [])
    (h : "\n\n".intercalate (ds.map (·.text)) = "\n\n".intercalate (es.map (·.text))) :
    ds.map undocumented = es.map undocumented := by
  -- No line of a declaration is empty, so the empty lines are those between declarations.
  have hlines : ds.map lines = es.map lines := by
    refine Text.paragraphs_injective (by simpa using hds) (by simpa using hes)
      (List.forall_mem_map.mpr fun d hmem => lines_spec (hd d hmem))
      (List.forall_mem_map.mpr fun e hmem => lines_spec (he e hmem)) ?_
    rw [← toList_texts, ← toList_texts, h]
  -- The lists may be empty from here on, or the induction would not go through.
  clear h hds hes
  induction ds generalizing es with
  | nil => rw [List.map_eq_nil_iff.mp hlines.symm]
  | cons d rest ih =>
    cases es with
    | nil => contradiction
    | cons e rest' =>
      rw [List.map_cons, List.map_cons, List.cons.injEq] at hlines
      rw [List.map_cons, List.map_cons,
        undocumented_eq_of_lines_eq (hd d List.mem_cons_self) (he e List.mem_cons_self) hlines.1,
        ih (fun d hmem => hd d (List.mem_cons_of_mem _ hmem))
          (fun e hmem => he e (List.mem_cons_of_mem _ hmem)) hlines.2]

end Reading

end Declaration

end TypeSketch
