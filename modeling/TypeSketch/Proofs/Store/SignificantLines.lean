import TypeSketch.Proofs.Names.Suffixes
import TypeSketch.Proofs.Text.Lines
import TypeSketch.Imports
import TypeSketch.Store.Equivalence

/-!
# Which Lines Count

When modules are compared, a line is judged by its first word: it starts an import only if
that is `import` or `from`. So a line counts if it starts with anything else and is neither
blank nor a comment.

The statements for a set of symbols do not count, on one line or in parentheses. The line
of a statement ends with an opening parenthesis if and only if the statement goes on, and
then no line before the last one starts with a closing parenthesis, because names have no
parentheses in them.

## Main definitions

* `Equivalence.firstWord`: What stands before the first white space.
* `Equivalence.IsSignificant`: Lines that count.
* `Imports.IsSolid`, `Imports.AreSolid`: Names without white space and parentheses.
* `Imports.statementLines`: The lines of a statement.

## Theorems

* `Equivalence.isImport_eq_false`: What is no import.
* `Equivalence.significant_append`: Lines that count are kept.
* `Equivalence.significant_formatLines`: Import statements are passed over.
-/

namespace TypeSketch

namespace Equivalence

open Text

/-- What stands before the first white space. -/
def firstWord (cs : List Char) : List Char :=
  cs.takeWhile (!Unicode.isBlank ·)

/-- The line is no import, not blank and no comment. -/
def IsSignificant (line : List Char) : Prop :=
  isImport (trimChars line) = false ∧ trimChars line ≠ [] ∧ (trimChars line).head? ≠ some '#'

section Words

variable {word rest : List Char} {c : Char}

theorem firstWord_append (hword : ∀ c ∈ word, Unicode.isBlank c = false)
    (hc : Unicode.isBlank c = true) : firstWord (word ++ c :: rest) = word := by
  rw [firstWord, List.takeWhile_append_of_pos (fun d hd => by simp [hword d hd]),
    List.takeWhile_cons_of_neg (by simp [hc]), List.append_nil]

theorem firstWord_cons (hc : Unicode.isBlank c = false) :
    firstWord (c :: rest) = c :: firstWord rest := by
  rw [firstWord, List.takeWhile_cons_of_pos (by simp [hc])]
  rfl

theorem isBlank_eq_false_of_all {cs : List Char} (h : cs.all (!Unicode.isBlank ·) = true) :
    ∀ c ∈ cs, Unicode.isBlank c = false :=
  fun c hc => Bool.not_eq_true' _ ▸ List.all_eq_true.mp h c hc

/-- An import starts with one of two words. -/
theorem isImport_eq_false {cs : List Char} (himport : firstWord cs ≠ "import".toList)
    (hfrom : firstWord cs ≠ "from".toList) : isImport cs = false := by
  rw [isImport, Bool.or_eq_false_iff]
  constructor
  · -- White space behind `import` would make it the first word.
    unfold startsImport
    split
    · next c more hdrop =>
      rw [Text.dropStart?_eq_some_iff] at hdrop
      by_contra hc
      rw [Bool.not_eq_false] at hc
      rw [hdrop, firstWord_append (isBlank_eq_false_of_all (by decide)) hc] at himport
      exact himport rfl
    · rfl
  -- The other form has blanks behind its keyword, and they would make `from` the first word.
  · unfold startsFromImport
    split
    · rfl
    · next more hskip =>
      exfalso
      rw [Option.bind_eq_some_iff] at hskip
      rcases hskip with ⟨behind, hdrop, hskip⟩
      rw [Text.dropStart?_eq_some_iff] at hdrop
      unfold skipSomeBlanks? at hskip
      split at hskip
      -- What stands behind the keyword is a blank, or the line is no such statement.
      · next c behind =>
        split at hskip
        · next hc =>
          rw [hdrop, firstWord_append (isBlank_eq_false_of_all (by decide)) hc] at hfrom
          exact hfrom rfl
        · contradiction
      · contradiction

/-- A first character that neither of the two words starts with is enough. -/
theorem isImport_cons_eq_false (hc : Unicode.isBlank c = false) (hne : c ≠ 'i' ∧ c ≠ 'f') :
    isImport (c :: rest) = false := by
  refine isImport_eq_false ?_ ?_ <;> rw [firstWord_cons hc] <;> intro heq
  · exact hne.1 (List.cons.inj heq).1
  · exact hne.2 (List.cons.inj heq).1

end Words

/-- Lines that count are kept, and empty ones are passed over. -/
theorem significant_append {lines : List (List Char)} (h : ∀ l ∈ lines, l ≠ [] → IsSignificant l)
    (rest : List (List Char)) :
    significant false (lines ++ rest) = lines.filter (!·.isEmpty) ++ significant false rest := by
  induction lines with
  | nil => rfl
  | cons line lines ih =>
    have hrest := ih fun l hl => h l (List.mem_cons_of_mem line hl)
    rw [List.cons_append, significant, if_neg Bool.false_ne_true]
    cases line with
    | nil => exact hrest
    | cons c cs =>
      rcases h (c :: cs) List.mem_cons_self (List.cons_ne_nil _ _) with ⟨himport, hne, hcomment⟩
      rw [himport, if_neg Bool.false_ne_true, if_neg, hrest]
      · rfl
      · simp [hne, hcomment]

end Equivalence

namespace Imports

open Text

/-- There is no white space and no parenthesis in the name, and it is not empty. -/
def IsSolid (name : String) : Prop :=
  name ≠ "" ∧ ∀ c ∈ name.toList, Unicode.isBlank c = false ∧ c ≠ '(' ∧ c ≠ ')'

instance (name : String) : Decidable (IsSolid name) :=
  decidable_of_iff
    (name ≠ "" ∧ (name.toList.all fun c => !Unicode.isBlank c && c ≠ '(' && c ≠ ')') = true)
    (by simp [IsSolid, and_assoc])

/-- The symbols have such names, and so have their modules. -/
def AreSolid (symbols : NameSet) : Prop :=
  ∀ symbol ∈ symbols, IsSolid (resolve symbol).1 ∧ IsSolid (resolve symbol).2

/-- The names in the statement for a module. -/
theorem mem_namesIn_iff {symbols : NameSet} {module n : String} :
    n ∈ (namesIn symbols module).names ↔ ∃ symbol ∈ symbols, resolve symbol = (module, n) := by
  have hmem : n ∈ (namesIn symbols module).names ↔ _ := NameSet.mem_ofList
  rw [hmem, List.mem_filterMap]
  constructor
  · rintro ⟨⟨m, k⟩, hresolved, hsome⟩
    rcases List.mem_map.mp hresolved with ⟨symbol, hsymbol, hresolve⟩
    dsimp only at hsome
    split at hsome
    · next heq =>
      rw [heq, Option.some.inj hsome] at hresolve
      exact ⟨symbol, hsymbol, hresolve⟩
    · contradiction
  · rintro ⟨symbol, hsymbol, hresolve⟩
    exact ⟨(module, n), List.mem_map.mpr ⟨symbol, hsymbol, hresolve⟩, if_pos rfl⟩

/-- A module has a statement if a symbol is imported from it, and then the statement has names. -/
theorem mem_modules_iff {symbols : NameSet} {module : String} :
    module ∈ (modules symbols).names ↔ (namesIn symbols module).names ≠ [] := by
  have hmem : module ∈ (modules symbols).names ↔ _ := NameSet.mem_ofList
  rw [hmem, List.mem_map]
  constructor
  · rintro ⟨symbol, hsymbol, rfl⟩
    exact List.ne_nil_of_mem (mem_namesIn_iff.mpr ⟨symbol, hsymbol, rfl⟩)
  · intro hne
    rcases List.exists_mem_of_ne_nil _ hne with ⟨n, hn⟩
    rcases mem_namesIn_iff.mp hn with ⟨symbol, hsymbol, hresolve⟩
    exact ⟨symbol, hsymbol, congrArg Prod.fst hresolve⟩

theorem AreSolid.of_mem_modules {symbols : NameSet} (h : AreSolid symbols) {module : String}
    (hmodule : module ∈ (modules symbols).names) :
    IsSolid module ∧ (namesIn symbols module).names ≠ [] ∧
      ∀ n ∈ (namesIn symbols module).names, IsSolid n := by
  refine ⟨?_, mem_modules_iff.mp hmodule, fun n hn => ?_⟩
  · rcases List.mem_map.mp (NameSet.mem_ofList.mp hmodule) with ⟨symbol, hsymbol, rfl⟩
    exact (h symbol hsymbol).1
  · rcases mem_namesIn_iff.mp hn with ⟨symbol, hsymbol, hresolve⟩
    have hsolid := (h symbol hsymbol).2
    rwa [hresolve] at hsolid

/-- The one line of a statement that is not broken. -/
def statementLine (module : String) (names : List String) : List Char :=
  ("from " ++ module ++ " import " ++ ", ".intercalate names).toList

/-- The line that a name has in a broken statement. -/
def nameLine (name : String) : List Char := (tab ++ name ++ ",").toList

/-- The lines of a statement. -/
def statementLines (module : String) (names : NameSet) (lineLength : Nat) : List (List Char) :=
  if ("from " ++ module ++ " import " ++ ", ".intercalate names.names).utf8ByteSize ≤ lineLength then
    [statementLine module names.names]
  else ("from " ++ module ++ " import (").toList :: (names.names.map nameLine ++ [[')']])

theorem toList_statement (module : String) (names : NameSet) (lineLength : Nat) :
    (statement module names lineLength).toList ++ ['\n'] =
      terminated (statementLines module names lineLength) := by
  unfold statement statementLines
  dsimp only
  split
  · rw [terminated, List.flatMap_singleton]
    rfl
  · simp [terminated, nameLine, String.toList_append, String.toList_join, List.flatMap_map]

/-- The statements for a set of symbols, line by line. -/
def formatLines (symbols : NameSet) (lineLength : Nat) : List (List Char) :=
  (modules symbols).names.flatMap fun module =>
    statementLines module (namesIn symbols module) lineLength

theorem toList_format {symbols : NameSet} (h : (modules symbols).names ≠ []) (lineLength : Nat) :
    (format symbols lineLength).toList ++ ['\n'] = terminated (formatLines symbols lineLength) := by
  have hparts : ∀ parts : List String, parts ≠ [] →
      ("\n".intercalate parts).toList ++ ['\n'] = parts.flatMap (·.toList ++ ['\n']) := by
    intro parts hne
    rw [String.toList_intercalate]
    have hsep : "\n".toList = ['\n'] := rfl
    rw [hsep, intercalate_append_newline (by simpa using hne), terminated, List.flatMap_map]
  rw [format, hparts _ (by simpa using h), formatLines, terminated, List.flatMap_map,
    List.flatMap_assoc]
  exact List.flatMap_congr fun module _ => toList_statement module _ lineLength

end Imports

namespace Equivalence

open Text Imports

variable {module : String} {names : List String} {rest : List (List Char)}

/-- A statement with something behind the keyword is an import. -/
theorem isImport_statement (hmodule : IsSolid module) (more : List Char) :
    isImport ("from".toList ++ ' ' :: (module.toList ++ ' ' :: ("import".toList ++ ' ' :: more))) =
      true := by
  have hblank : Unicode.isBlank ' ' = true := by decide
  have hsolid : ∀ c ∈ module.toList, Unicode.isBlank c = false := fun c hc => (hmodule.2 c hc).1
  have hne : module.toList ≠ [] := fun h => hmodule.1 (String.toList_eq_nil_iff.mp h)
  -- The words are the keyword, the module and the other keyword.
  have hskip : skipSomeBlanks? (' ' :: (module.toList ++ ' ' :: ("import".toList ++ ' ' :: more))) =
      some (module.toList ++ ' ' :: ("import".toList ++ ' ' :: more)) := by
    rw [skipSomeBlanks?, if_pos hblank]
    cases hchars : module.toList with
    | nil => contradiction
    | cons c cs =>
      rw [hchars] at hsolid
      rw [List.cons_append, List.dropWhile_cons_of_neg (by simp [hsolid c List.mem_cons_self])]
  have hword : (module.toList ++ ' ' :: ("import".toList ++ ' ' :: more)).takeWhile
      (!Unicode.isBlank ·) = module.toList := firstWord_append hsolid hblank
  have hbehind : (module.toList ++ ' ' :: ("import".toList ++ ' ' :: more)).dropWhile
      (!Unicode.isBlank ·) = ' ' :: ("import".toList ++ ' ' :: more) := by
    rw [List.dropWhile_append_of_pos (fun c hc => by simp [hsolid c hc]),
      List.dropWhile_cons_of_neg (by simp [hblank])]
  have hskip' : skipSomeBlanks? (' ' :: ("import".toList ++ ' ' :: more)) =
      some ("import".toList ++ ' ' :: more) := rfl
  have hstart : startsImport ("import".toList ++ ' ' :: more) = true := by
    rw [startsImport, Text.dropStart?_eq_some_iff.mpr rfl]
    exact hblank
  -- The statement is of the second form, and its reader goes on word by word.
  refine Bool.or_eq_true _ _ |>.mpr (Or.inr ?_)
  rw [startsFromImport, Text.dropStart?_eq_some_iff.mpr rfl, Option.bind_some, hskip]
  dsimp only
  rw [hword, hbehind, hskip']
  dsimp only
  rw [hstart, Bool.and_true, Bool.not_eq_true', List.isEmpty_eq_false_iff]
  exact hne

/-- The last text of a separated list is at its end. -/
theorem exists_intercalate_eq {α : Type} (sep last : List α) (parts : List (List α)) :
    ∃ before, sep.intercalate (parts ++ [last]) = before ++ last := by
  cases parts with
  | nil => exact ⟨[], List.intercalate_singleton⟩
  | cons part parts =>
    rw [intercalate_append (List.cons_ne_nil part parts) (List.cons_ne_nil last [])]
    exact ⟨_, congrArg _ List.intercalate_singleton⟩

/-- The line of a statement that is not broken, which ends with a name. -/
theorem isIndented_statementLine (module : String) (hne : names ≠ []) (hnames : ∀ n ∈ names, IsSolid n) :
    IsIndented [] (statementLine module names) (statementLine module names) ∧
      (statementLine module names).getLast? ≠ some '(' := by
  -- The line ends with the last character of the last name.
  have hlast : ∃ before c, statementLine module names = before ++ [c] ∧
      Unicode.isBlank c = false ∧ c ≠ '(' := by
    rw [← List.dropLast_append_getLast hne]
    rcases hnames _ (List.getLast_mem hne) with ⟨hempty, hsolid⟩
    have hchars : (names.getLast hne).toList ≠ [] := fun h => hempty (String.toList_eq_nil_iff.mp h)
    rcases hsolid _ (List.getLast_mem hchars) with ⟨hblank, hopen, _⟩
    rcases exists_intercalate_eq ", ".toList (names.getLast hne).toList
      (names.dropLast.map String.toList) with ⟨before, hbefore⟩
    refine ⟨("from " ++ module ++ " import ").toList ++ before ++ (names.getLast hne).toList.dropLast,
      _, ?_, hblank, hopen⟩
    rw [statementLine, String.toList_append, String.toList_intercalate, List.map_append,
      List.map_singleton, hbefore, List.append_assoc, List.append_assoc,
      List.dropLast_append_getLast hchars]
  have hfirst : ∃ more, statementLine module names = 'f' :: more := by
    rw [statementLine, String.append_assoc, String.append_assoc, String.toList_append]
    exact ⟨_, rfl⟩
  rcases hlast with ⟨before, c, hline, hblank, hopen⟩
  rcases hfirst with ⟨more, hfirst⟩
  -- Nothing stands before the first character, and the last one is neither blank nor a parenthesis.
  refine ⟨⟨rfl, by simp, ⟨'f', more, hfirst, by decide⟩, before, c, hline, hblank⟩, ?_⟩
  rw [hline, List.getLast?_concat]
  exact fun heq => hopen (Option.some.inj heq)

theorem isBlank_of_mem_tab : ∀ c ∈ tab.toList, Unicode.isBlank c = true :=
  List.all_eq_true.mp (by decide)

theorem isIndented_nameLine {n : String} (h : IsSolid n) :
    IsIndented tab.toList (n.toList ++ [',']) (nameLine n) := by
  have hne : n.toList ≠ [] := fun hempty => h.1 (String.toList_eq_nil_iff.mp hempty)
  exact ⟨by simp [nameLine, String.toList_append], isBlank_of_mem_tab,
    (solid_of_forall_mem hne fun c hc => (h.2 c hc).1).1.append _, endsSolid_concat (by decide) _⟩

/-- The lines of a statement are read as they are written. -/
theorem isLine_statementLines {set : NameSet} {lineLength : Nat} (hmodule : IsSolid module)
    (hne : set.names ≠ []) (hnames : ∀ n ∈ set.names, IsSolid n) :
    ∀ l ∈ statementLines module set lineLength, IsLine l := by
  have hbreak : ∀ {n : String}, IsSolid n → '\n' ∉ n.toList :=
    fun hn hmem => absurd (hn.2 _ hmem).1 (by decide)
  intro l hl
  unfold statementLines at hl
  -- The statement stands on one line, or it is broken with a name on each line.
  split at hl
  · rw [List.mem_singleton.mp hl]
    refine ((isIndented_statementLine module hne hnames).1.isLine ?_).1
    have hlist : '\n' ∉ [',', ' '].intercalate (set.names.map String.toList) :=
      not_mem_intercalate (by decide) (List.forall_mem_map.mpr fun n hn => hbreak (hnames n hn))
    simp [statementLine, String.toList_append, hbreak hmodule, hlist]
  · rcases List.mem_cons.mp hl with rfl | hl
    · have hends : ("from " ++ module ++ " import (").toList =
          ("from " ++ module ++ " import ").toList ++ ['('] := by
        simp [String.toList_append]
      -- The first line has no break, and it ends with the parenthesis.
      refine ⟨by simp [String.toList_append, hbreak hmodule], ?_⟩
      rw [hends, List.getLast?_concat]
      decide
    · rcases List.mem_append.mp hl with hl | hl
      · rcases List.mem_map.mp hl with ⟨n, hn, rfl⟩
        refine ((isIndented_nameLine (hnames n hn)).isLine ?_).1
        have htab : '\n' ∉ tab.toList := by decide
        simp [nameLine, String.toList_append, hbreak (hnames n hn), htab]
      · rw [List.mem_singleton.mp hl]
        exact ⟨by decide, by decide⟩

/-- The lines of names in parentheses do not close the statement. -/
theorem significant_nameLines (hnames : ∀ n ∈ names, IsSolid n) :
    significant true (names.map nameLine ++ [')'] :: rest) = significant false rest := by
  -- Inside of the parentheses every line is skipped, up to the one that closes them.
  induction names with
  | nil => rfl
  | cons n names ih =>
    rcases hnames n List.mem_cons_self with ⟨hempty, hsolid⟩
    have hne : n.toList ≠ [] := fun h => hempty (String.toList_eq_nil_iff.mp h)
    have hline : IsIndented tab.toList (n.toList ++ [',']) (nameLine n) :=
      isIndented_nameLine (hnames n List.mem_cons_self)
    have hfirst : (n.toList ++ [',']).head? ≠ some ')' := by
      cases hchars : n.toList with
      | nil => contradiction
      | cons c cs =>
        exact fun heq => (hsolid c (by simp [hchars])).2.2 (Option.some.inj heq)
    rw [List.map_cons, List.cons_append, significant, if_pos rfl, trimChars_of_isIndented hline,
      decide_eq_true hfirst]
    exact ih fun n hn => hnames n (List.mem_cons_of_mem _ hn)

/-- A statement does not count, broken or not. -/
theorem significant_statementLines {set : NameSet} {lineLength : Nat} (hmodule : IsSolid module)
    (hne : set.names ≠ []) (hnames : ∀ n ∈ set.names, IsSolid n) :
    significant false (statementLines module set lineLength ++ rest) = significant false rest := by
  unfold statementLines
  split
  · rcases isIndented_statementLine module hne hnames with ⟨hline, hlast⟩
    -- The whole statement is on one line, which is passed over as an import.
    have himport : isImport (statementLine module set.names) = true := by
      rw [statementLine, String.append_assoc, String.append_assoc, String.toList_append,
        String.toList_append, String.toList_append]
      exact isImport_statement hmodule _
    rw [List.singleton_append, significant, if_neg Bool.false_ne_true, trimChars_of_isIndented hline,
      if_pos himport, decide_eq_false hlast]
  -- The first line of a broken statement ends with a parenthesis, so the names are skipped too.
  · have hchars : ("from " ++ module ++ " import (").toList =
        "from".toList ++ ' ' :: (module.toList ++ ' ' :: ("import".toList ++ ' ' :: ['('])) := by
      simp [String.toList_append]
    have hends : ("from " ++ module ++ " import (").toList =
        ("from " ++ module ++ " import ").toList ++ ['('] := by
      simp [String.toList_append]
    have hline : IsIndented [] ("from " ++ module ++ " import (").toList
        ("from " ++ module ++ " import (").toList :=
      ⟨rfl, by simp, ⟨'f', _, hchars, by decide⟩, _, '(', hends, by decide⟩
    have hlast : ("from " ++ module ++ " import (").toList.getLast? = some '(' := by
      rw [hends, List.getLast?_concat]
    rw [List.cons_append, significant, if_neg Bool.false_ne_true, trimChars_of_isIndented hline,
      if_pos (by rw [hchars]; exact isImport_statement hmodule ['(']), decide_eq_true hlast,
      List.append_assoc]
    exact significant_nameLines hnames

variable {symbols : NameSet}

/-- The statements for a set of symbols do not count. -/
theorem significant_formatLines (h : AreSolid symbols) (lineLength : Nat) :
    significant false (formatLines symbols lineLength ++ rest) = significant false rest := by
  have hmodules : ∀ ms : List String, (∀ m ∈ ms, m ∈ (modules symbols).names) →
      significant false
        ((ms.flatMap fun m => statementLines m (namesIn symbols m) lineLength) ++ rest) =
        significant false rest := by
    intro ms
    induction ms with
    | nil => exact fun _ => rfl
    | cons m ms ih =>
      intro hms
      rcases h.of_mem_modules (hms m List.mem_cons_self) with ⟨hm, hne, hnames⟩
      rw [List.flatMap_cons, List.append_assoc, significant_statementLines hm hne hnames,
        ih fun m hm => hms m (List.mem_cons_of_mem _ hm)]
  exact hmodules _ fun _ hm => hm

theorem isLine_formatLines (h : AreSolid symbols) (lineLength : Nat) :
    ∀ l ∈ formatLines symbols lineLength, IsLine l := by
  intro l hl
  rcases List.mem_flatMap.mp hl with ⟨m, hm, hl⟩
  rcases h.of_mem_modules hm with ⟨hsolid, hne, hnames⟩
  exact isLine_statementLines hsolid hne hnames l hl

end Equivalence

end TypeSketch
