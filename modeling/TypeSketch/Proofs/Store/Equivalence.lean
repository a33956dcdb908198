import TypeSketch.Proofs.Names.NodeNames
import TypeSketch.Proofs.Render.Determined
import TypeSketch.Proofs.Render.Symbols
import TypeSketch.Proofs.Store.DeclarationLines
import TypeSketch.Render.Module

/-!
# Comparing Modules

The lines of a module that count are those of its declarations. The header is a comment,
the import statements are passed over however long they are, and the declarations of an
inferred tree are written with identifiers, so each of their lines counts. Hence modules
are equivalent if and only if their declarations have one text.

## Main definitions

* `Session.lines`: The lines of the declarations of a session.
* `Session.IsWritable`: Sessions whose lines are read as they are written.

## Theorems

* `Session.IsWritable.significantLines_moduleText`: The lines of a module that count.
* `Session.IsWritable.declarationsText_eq`: The lines that count determine the text.
* `Inference.isWritable_of_render`: Inferred trees are rendered to such sessions.
* `Inference.areEquivalent_iff`: Equivalent modules are those with the same declarations.
-/

namespace TypeSketch

open Text

namespace TypeExpr

theorem endsSolid_apply (constructor : String) (arguments : List TypeExpr) :
    EndsSolid (apply constructor arguments).text.toList := by
  rw [toList_text_apply]
  exact ((endsSolid_concat (by decide) _).cons '[').append _

theorem endsSolid_name {n : String} (h : Naming.isIdentifier n = true) :
    EndsSolid (name n).text.toList := by
  rcases Declaration.forall_mem_isIdentifier h with ⟨hne, hchars⟩
  exact (solid_of_forall_mem hne fun c hc => (hchars c hc).1).2

theorem endsSolid_scalarName {n : String} (h : n ∈ Naming.scalarNames) :
    EndsSolid (name n).text.toList := by
  have hall : ∀ n ∈ Naming.scalarNames, Naming.isIdentifier n = true ∨ n = "None" := by
    decide
  rcases hall n h with hidentifier | rfl
  · exact endsSolid_name hidentifier
  · exact ⟨['N', 'o', 'n'], 'e', rfl, by decide⟩

end TypeExpr

namespace TypeTree

variable {s : Strategies} {t : TypeTree}

/-- What stands where a node is used ends with no white space. -/
theorem endsSolid_spellUse (h : IsBuiltin t)
    (hname : t.isAliased s = true → Naming.isIdentifier t.name = true) :
    EndsSolid (t.spellUse s).written.text.toList := by
  rcases spellUse_cases h with
    ⟨haliased, hw, _⟩ | ⟨_, r, hr, hw, _⟩ | ⟨_, ⟨_, _, _, hw⟩, _⟩ <;> rw [hw]
  · exact TypeExpr.endsSolid_name (hname haliased)
  · exact TypeExpr.endsSolid_scalarName hr
  · exact TypeExpr.endsSolid_apply _ _

theorem endsSolid_spell (h : IsBuiltin t) (hrecord : t.isRecord = false) :
    EndsSolid (t.spell s).written.text.toList := by
  by_cases hscalar : ∃ name v type, t = .scalar name v type
  · rcases hscalar with ⟨name, v, type, rfl⟩
    rcases h with ⟨known⟩
    exact TypeExpr.endsSolid_scalarName known
  · simp only [not_exists] at hscalar
    rcases spell_eq_apply (s := s) hrecord hscalar with ⟨_, _, _, hw⟩
    rw [hw]
    exact TypeExpr.endsSolid_apply _ _

/-- The type of a field ends with no white space, because that of its node does not. -/
theorem endsSolid_spellField {profile : RecordProfile} {key : Value}
    (h : EndsSolid (t.spellUse s).written.text.toList) :
    EndsSolid (spellField s profile key t).written.2.text.toList := by
  unfold spellField
  dsimp only
  split
  · exact TypeExpr.endsSolid_apply _ _
  · split
    · exact TypeExpr.endsSolid_apply _ _
    · exact h

/-- A declaration is writable if the names in it are identifiers. -/
theorem IsSpellable.isWritable (h : IsSpellable s t) (hname : Naming.isIdentifier t.name = true)
    (hchildren : ∀ c ∈ t.children, c.isAliased s = true → Naming.isIdentifier c.name = true) :
    (t.spellDeclaration s).written.IsWritable := by
  by_cases hrecord : t.isRecord = true
  · rcases exists_eq_of_isRecord hrecord with ⟨name, v, profile, height, shape, fields, rfl⟩
    rcases h.coherent with _ | ⟨_, _, hfits, _, _⟩
    rw [spellDeclaration_record]
    -- In a functional record any key will do, as it stands in a literal.
    by_cases hfunctional : profile.functional = true
    · rw [if_pos hfunctional]
      exact hname
    · rw [if_neg hfunctional]
      refine ⟨hname, List.forall_mem_map.mpr fun f hf => ⟨?_, ?_⟩⟩
      · exact hfits.2 (Bool.not_eq_true _ ▸ hfunctional) f.1 (List.mem_map_of_mem hf)
      · have hc : f.2 ∈ (mapping name v (.record profile) height shape fields).children :=
          List.mem_map_of_mem hf
        exact endsSolid_spellField (endsSolid_spellUse (h.child hc).builtin (hchildren f.2 hc))
  · rw [spellDeclaration_of_not_record (Bool.not_eq_true _ ▸ hrecord)]
    exact ⟨hname, endsSolid_spell h.builtin (Bool.not_eq_true _ ▸ hrecord)⟩

end TypeTree

namespace Session

open TypeSketch.Equivalence Imports

/-- The lines of the declarations, with empty ones between declarations. -/
def lines (session : Session) : List (List Char) :=
  [[]].intercalate (session.blocks.map Declaration.lines)

/-- There are declarations, all of them are plain and writable, and the symbols are solid. -/
structure IsWritable (session : Session) : Prop where
  blocks_ne : session.blocks ≠ []
  blocks : ∀ d ∈ session.blocks, d.IsPlain ∧ d.IsWritable
  symbols : AreSolid session.symbols

variable {session : Session}

theorem toList_declarationsText (h : ∀ d ∈ session.blocks, d.IsPlain) :
    session.declarationsText.toList = ['\n'].intercalate session.lines := by
  rw [declarationsText, Declaration.toList_texts, lines]
  exact intercalate_paragraphs '\n' (List.forall_mem_map.mpr fun d hd =>
    (Declaration.lines_spec (h d hd)).1)

/-- A line of the declarations is empty, or it counts. -/
theorem IsWritable.forall_mem_lines (h : session.IsWritable) :
    ∀ l ∈ session.lines, IsLine l ∧ (l ≠ [] → IsSignificant l) := by
  have hempty : IsLine [] := ⟨List.not_mem_nil, by decide⟩
  -- The lines are those of the declarations, with empty lines between the declarations.
  have hblock : ∀ ls ∈ session.blocks.map Declaration.lines, ∀ l ∈ ls,
      IsLine l ∧ (l ≠ [] → IsSignificant l) := by
    refine List.forall_mem_map.mpr fun d hd l hl => ?_
    rcases h.blocks d hd with ⟨hplain, hwritable⟩
    have hcounts := hwritable.counts l hl
    rcases hcounts with ⟨indent, body, hline, _⟩
    exact ⟨(hline.isLine ((Declaration.lines_spec hplain).2 l hl).2).1,
      fun _ => (hwritable.counts l hl).isSignificant⟩
  intro l hl
  rw [lines] at hl
  cases hlines : session.blocks.map Declaration.lines with
  | nil =>
    rw [hlines] at hl
    exact absurd hl List.not_mem_nil
  | cons first rest =>
    rw [hlines, List.forall_mem_cons] at hblock
    rw [hlines, intercalate_cons_eq] at hl
    -- The line is one of the first declaration, or one of a later declaration or before it.
    rcases List.mem_append.mp hl with hl | hl
    · exact hblock.1 l hl
    · rcases List.mem_flatMap.mp hl with ⟨ls, hls, hl⟩
      rcases List.mem_cons.mp hl with rfl | hl
      · exact ⟨hempty, fun hne => absurd rfl hne⟩
      · exact hblock.2 ls hls l hl

/-- The last line is one of the last declaration. -/
theorem IsWritable.exists_lines_eq (h : session.IsWritable) :
    ∃ before last, session.lines = before ++ [last] ∧ last ≠ [] := by
  rcases List.eq_nil_or_concat session.blocks with hnil | ⟨ds, d, hblocks⟩
  · exact absurd hnil h.blocks_ne
  · rw [List.concat_eq_append] at hblocks
    have hd : d ∈ session.blocks := by
      rw [hblocks]
      exact List.mem_append_right _ (List.mem_singleton_self d)
    rcases Declaration.lines_spec (h.blocks d hd).1 with ⟨hne, hlines⟩
    refine ⟨(ds.map Declaration.lines).flatMap (· ++ [[]]) ++ d.lines.dropLast,
      d.lines.getLast hne, ?_, (hlines _ (List.getLast_mem hne)).1⟩
    rw [lines, hblocks, List.map_append, List.map_singleton, intercalate_concat_eq,
      List.append_assoc, List.dropLast_append_getLast]

theorem IsWritable.splitLines_declarationsText (h : session.IsWritable) :
    splitLines session.declarationsText.toList = session.lines := by
  rw [toList_declarationsText fun d hd => (h.blocks d hd).1]
  have hlines := fun l hl => (h.forall_mem_lines l hl).1
  rcases h.exists_lines_eq with ⟨before, last, heq, hne⟩
  rw [heq] at hlines ⊢
  exact splitLines_intercalate hlines hne

/-- The lines of a module before its declarations: the header, and the import statements
    with an empty line behind them. -/
def leadingLines (session : Session) : List (List Char) :=
  header.toList ::
    if (session.importText defaultLineLength).isEmpty then []
    else formatLines session.symbols defaultLineLength ++ [[]]

/-- A module is its lines. -/
theorem IsWritable.toList_moduleText (h : session.IsWritable) :
    session.moduleText.toList = terminated (session.leadingLines ++ session.lines) := by
  have hlines : session.lines ≠ [] := by
    rcases h.exists_lines_eq with ⟨before, last, heq, _⟩
    rw [heq]
    exact List.append_ne_nil_of_right_ne_nil _ (List.cons_ne_nil _ _)
  -- Lines with breaks between them and one at the end are lines that are terminated.
  have hdeclarations : session.declarationsText.toList ++ ['\n'] = terminated session.lines := by
    rw [toList_declarationsText fun d hd => (h.blocks d hd).1, intercalate_append_newline hlines]
  have hbreak : "\n".toList = ['\n'] := rfl
  have hbreaks : "\n\n".toList = ['\n', '\n'] := rfl
  unfold moduleText leadingLines
  dsimp only
  rw [String.toList_append, String.toList_append, String.toList_append, String.toList_append,
    hbreak, List.append_assoc _ _ ['\n'], hdeclarations, List.cons_append, terminated_cons,
    terminated_append]
  -- Without symbols there are no imports, and no empty line to set them apart.
  split
  · simp [terminated]
  · next himports =>
    have hmodules : (modules session.symbols).names ≠ [] := by
      intro hnil
      refine himports ?_
      rw [importText, format, hnil]
      rfl
    have hformat := toList_format hmodules defaultLineLength
    rw [String.toList_append, hbreaks, terminated_append, ← hformat, importText]
    simp [terminated]

/-- The lines of a module that count are those of its declarations that are not empty. -/
theorem IsWritable.significantLines_moduleText (h : session.IsWritable) :
    significantLines session.moduleText = session.lines.filter (!·.isEmpty) := by
  have hheader : IsLine header.toList := ⟨by decide, by decide⟩
  have hleading : ∀ l ∈ session.leadingLines, IsLine l := by
    intro l hl
    unfold leadingLines at hl
    rcases List.mem_cons.mp hl with rfl | hl
    · exact hheader
    · split at hl
      · exact absurd hl List.not_mem_nil
      · rcases List.mem_append.mp hl with hl | hl
        · exact isLine_formatLines h.symbols _ l hl
        · rw [List.mem_singleton.mp hl]
          exact ⟨List.not_mem_nil, by decide⟩
  -- Splitting gives the lines back that were put together, as none of them has a break in it.
  have hall : ∀ l ∈ session.leadingLines ++ session.lines, IsLine l := by
    intro l hl
    rcases List.mem_append.mp hl with hl | hl
    · exact hleading l hl
    · exact (h.forall_mem_lines l hl).1
  have hcounted : significant false (session.lines ++ []) =
      session.lines.filter (!·.isEmpty) ++ significant false [] :=
    significant_append (fun l hl => (h.forall_mem_lines l hl).2) []
  have hsplit := splitLines_terminated_append hall []
  rw [List.append_nil, splitLines, List.append_nil] at hsplit
  rw [significant, List.append_nil, List.append_nil] at hcounted
  rw [significantLines, h.toList_moduleText, hsplit, leadingLines, List.cons_append]
  -- The header is a comment, and the statements for the symbols are passed over.
  have hcomment : ∀ rest, significant false (header.toList :: rest) = significant false rest :=
    fun _ => rfl
  rw [hcomment]
  split
  · exact hcounted
  · rw [List.append_assoc, significant_formatLines h.symbols]
    exact hcounted

/-- The lines that count determine the text of the declarations. -/
theorem IsWritable.declarationsText_eq {a b : Session} (ha : a.IsWritable) (hb : b.IsWritable)
    (h : significantLines a.moduleText = significantLines b.moduleText) :
    a.declarationsText = b.declarationsText := by
  -- The lines that count are those of the declarations, as only the lines between them are empty.
  have hflatten : ∀ session : Session, session.IsWritable →
      session.lines.filter (!·.isEmpty) = (session.blocks.map Declaration.lines).flatten := by
    intro session hsession
    have hne : ∀ ls ∈ session.blocks.map Declaration.lines, ls.filter (!·.isEmpty) = ls := by
      refine List.forall_mem_map.mpr fun d hd => List.filter_eq_self.mpr fun l hl => ?_
      simpa using ((Declaration.lines_spec (hsession.blocks d hd).1).2 l hl).1
    rw [lines]
    cases hlines : session.blocks.map Declaration.lines with
    | nil => rfl
    | cons first rest =>
      rw [hlines, List.forall_mem_cons] at hne
      rw [intercalate_cons_eq, List.filter_append, hne.1, List.flatten_cons, List.filter_flatMap]
      refine congrArg _ ?_
      rw [List.flatMap_congr fun ls hls =>
        (hne.2 ls hls : ([] :: ls).filter _ = ls), List.flatMap_id']
  have hstart : ∀ session : Session, session.IsWritable →
      ∀ ls ∈ session.blocks.map Declaration.lines, StartsBlock Declaration.Opens ls :=
    fun session hsession => List.forall_mem_map.mpr fun d hd => (hsession.blocks d hd).2.startsBlock
  rw [ha.significantLines_moduleText, hb.significantLines_moduleText, hflatten a ha,
    hflatten b hb] at h
  -- Each declaration starts with a line that goes on nothing, so the lines tell where they are cut.
  have hlines := eq_of_flatten_eq (hstart a ha) (hstart b hb) h
  refine String.toList_inj.mp ?_
  rw [declarationsText, declarationsText, Declaration.toList_texts, Declaration.toList_texts,
    hlines]

end Session

namespace Inference

open TypeTree

/-- Inferred trees of examples without opaque parts are rendered to writable sessions. -/
theorem isWritable_of_render {s : Strategies} {name : String} {v : Value} {t : TypeTree}
    {session : Session} (hfree : v.IsOpaqueFree) (h : infer { strategies := s } name v = .ok t)
    (hrender : t.render s = .ok session) : session.IsWritable := by
  have hspell := isSpellable_of_infer hfree h
  rcases exists_isClosedOver_render hspell.wellNamed hrender with ⟨below, hclosed, hbelow, _⟩
  have hnodes : ∀ u ∈ below ++ [t], u ∈ t.nodes := by
    intro u hu
    rcases List.mem_append.mp hu with hu | hu
    · exact mem_nodes.mpr (Or.inr (hbelow u hu).1)
    · rw [List.mem_singleton.mp hu]
      exact mem_nodes_self t
  -- What is declared are nodes of the tree, and those of an inferred tree are spelled with names.
  have hwritable : ∀ u ∈ below ++ [t], (u.spellDeclaration s).written.IsPlain ∧
      (u.spellDeclaration s).written.IsWritable := by
    intro u hu
    have hmem := hnodes u hu
    have hname := isIdentifier_of_infer h hmem
    have hspellable := hspell.of_mem_nodes hmem
    refine ⟨hspellable.isPlain_spellDeclaration (Naming.isPlain_of_isIdentifier hname),
      hspellable.isWritable hname fun c hc _ => ?_⟩
    exact isIdentifier_of_infer h (mem_nodes_trans hmem (mem_nodes_of_child hc (mem_nodes_self c)))
  -- Symbols come from a fixed list, and none of them has white space or a parenthesis in it.
  have hsymbols : ∀ symbol ∈ constructorSymbols, Imports.IsSolid (Imports.resolve symbol).1 ∧
      Imports.IsSolid (Imports.resolve symbol).2 := by decide
  refine ⟨?_, fun d hd => ?_, fun symbol hsymbol =>
    hsymbols _ (mem_symbols_of_render h hrender hsymbol)⟩
  · rw [hclosed.blocks_eq]
    simp
  · rw [hclosed.blocks_eq, List.map_map] at hd
    rcases List.mem_map.mp hd with ⟨u, hu, rfl⟩
    exact hwritable u hu

/-- Modules are equivalent if and only if their declarations have one text, and what counts
    in a module are the lines of its declarations that are not empty. -/
theorem areEquivalent_iff {s s' : Strategies} {name name' : String} {v w : Value} {t u : TypeTree}
    {a b : Session} (hv : v.IsOpaqueFree) (hw : w.IsOpaqueFree)
    (ht : infer { strategies := s } name v = .ok t)
    (hu : infer { strategies := s' } name' w = .ok u)
    (ha : t.render s = .ok a) (hb : u.render s' = .ok b) :
    (Equivalence.areEquivalent a.moduleText b.moduleText = true ↔
      a.declarationsText = b.declarationsText) ∧
    (Equivalence.significantLines a.moduleText =
      (splitLines a.declarationsText.toList).filter (!·.isEmpty)) ∧
    Equivalence.significantLines b.moduleText =
      (splitLines b.declarationsText.toList).filter (!·.isEmpty) := by
  have hleft := isWritable_of_render hv ht ha
  have hright := isWritable_of_render hw hu hb
  have hlines : ∀ session : Session, session.IsWritable →
      Equivalence.significantLines session.moduleText =
        (splitLines session.declarationsText.toList).filter (!·.isEmpty) := by
    intro session hsession
    rw [hsession.significantLines_moduleText, hsession.splitLines_declarationsText]
  refine ⟨?_, hlines a hleft, hlines b hright⟩
  rw [Equivalence.areEquivalent, decide_eq_true_eq]
  refine ⟨hleft.declarationsText_eq hright, fun htext => ?_⟩
  rw [hlines a hleft, hlines b hright, htext]

/-- Keys that look like an import and like a comment are compared as any others. -/
theorem areEquivalent_iff_keys :
    ∃ t u a b, infer {} "Row" (.mapping [(.str "import x", .int 1), (.str "#", .str "a")]) = .ok t ∧
      infer { strategies := { tupleSize := .anySize } } "Row"
        (.mapping [(.str "import x", .int 2), (.str "#", .str "b")]) = .ok u ∧
      t.render {} = .ok a ∧ u.render { tupleSize := .anySize } = .ok b ∧
      Equivalence.areEquivalent a.moduleText b.moduleText = true := by
  have hfree : ∀ i s,
      (Value.mapping [(.str "import x", .int i), (.str "#", .str s)]).IsOpaqueFree := by
    intro i s
    refine .mapping (fun e he => ?_) fun e he => ?_ <;>
      simp only [List.mem_cons, List.not_mem_nil, or_false] at he <;>
      rcases he with rfl | rfl <;> exact .atom fun _ => Atom.noConfusion
  have hiff := @areEquivalent_iff {} { tupleSize := .anySize } "Row" "Row"
    (.mapping [(.str "import x", .int 1), (.str "#", .str "a")])
    (.mapping [(.str "import x", .int 2), (.str "#", .str "b")]) _ _ _ _
    (hfree 1 "a") (hfree 2 "b") rfl rfl rfl rfl
  exact ⟨_, _, _, _, rfl, rfl, rfl, rfl, hiff.1.mpr (by decide +kernel)⟩

end Inference

end TypeSketch
