import Mathlib.Data.List.Nodup
import TypeSketch.Proofs.Store.SignificantLines

/-!
# Reading Import Statements

Import statements are read line by line. The line that starts a statement has the module
between its two keywords. Behind the second keyword there are the names with commas between
them, or an opening parenthesis. In parentheses each name has a line with a comma at its end,
until there is the closing parenthesis.

The statements for a set of symbols read as what they were written for, if the symbols are
words with points between them: one statement for each module, and in it the names that symbols
have in the module. Two symbols can have the same name in the same module, and it is in the
statement once.

## Main definitions

* `Imports.Statement`: Statements as they are read.
* `Imports.readLines`, `Imports.read?`: Reading statements.
* `Imports.IsDotted`: Words with points between them.
* `Imports.statements`: The statements for a set of symbols.

## Theorems

* `Imports.IsDotted.isItem_resolve`: What names are in statements.
* `Imports.readLines_statementLines`: One statement more.
* `Imports.read?_format`: The statements for a set of symbols are read back.
* `Imports.format_denotes`: What the statements for a set of symbols import.
-/

namespace TypeSketch

theorem NameSet.mem_foldl_insertAll {s : NameSet} {steps : List (List String)} {name : String} :
    name ∈ steps.foldl insertAll s ↔ (∃ step ∈ steps, name ∈ step) ∨ name ∈ s := by
  induction steps generalizing s with
  | nil => simp
  | cons step steps ih =>
    rw [List.foldl_cons, ih, mem_insertAll, List.exists_mem_cons_iff, or_left_comm, or_assoc]

namespace Imports

open Text

/-- A statement: the module, the names in their order, and whether they are in parentheses. -/
structure Statement where
  module : String
  names : List String
  isBroken : Bool
deriving Repr, DecidableEq

namespace Statement

/-- What the statement imports. -/
def pairs (s : Statement) : List (String × String) := s.names.map (s.module, ·)

/-- The statement on one line. -/
def line (s : Statement) : String :=
  "from " ++ s.module ++ " import " ++ ", ".intercalate s.names

end Statement

/-- The module in a line that starts a statement, and what is behind the second keyword. -/
def readHead? (line : List Char) : Option (String × List Char) := do
  let behind ← dropStart? "from ".toList line
  let rest ← dropStart? " import ".toList (behind.dropWhile (· ≠ ' '))
  some (String.ofList (behind.takeWhile (· ≠ ' ')), rest)

/-- The texts between commas, without the white space around them. -/
def readNames (cs : List Char) : List String :=
  (cs.splitOn ',').map fun name => String.ofList (trimChars name)

/-- The name on a line in parentheses. -/
def readName? (line : List Char) : Option String :=
  match readNames line with
  | [name, ""] => some name
  | _ => none

/-- The statements on these lines. If there is a module, then the lines start within the
    parentheses of a statement for it, behind some names. -/
def readLines : Option (String × List String) → List (List Char) → Option (List Statement)
  | none, [] => some []
  | some _, [] => none
  | none, line :: lines => do
    let (module, rest) ← readHead? line
    if rest = ['('] then readLines (some (module, [])) lines
    else (readLines none lines).map (⟨module, readNames rest, false⟩ :: ·)
  | some (module, names), line :: lines =>
    if line = [')'] then (readLines none lines).map (⟨module, names, true⟩ :: ·)
    else do
      let name ← readName? line
      readLines (some (module, names ++ [name])) lines

/-- The statements in a text that consists of statements only. -/
def read? (text : String) : Option (List Statement) := readLines none (splitLines text.toList)

/-- The symbol is made of words with points between them. There is no white space, comma or
    parenthesis in it, and no word is empty. -/
def IsDotted (symbol : String) : Prop :=
  (∀ c ∈ symbol.toList, Unicode.isBlank c = false ∧ c ≠ ',' ∧ c ≠ '(' ∧ c ≠ ')') ∧
    [] ∉ symbol.toList.splitOn '.'

instance (symbol : String) : Decidable (IsDotted symbol) :=
  decidable_of_iff
    ((symbol.toList.all fun c => !Unicode.isBlank c && c ≠ ',' && c ≠ '(' && c ≠ ')') = true ∧
      [] ∉ symbol.toList.splitOn '.')
    (by simp [IsDotted, and_assoc])

/-- The name can be read in a list. -/
def IsItem (name : String) : Prop := IsSolid name ∧ ',' ∉ name.toList

instance (name : String) : Decidable (IsItem name) := inferInstanceAs (Decidable (_ ∧ _))

/-- The statements for a set of symbols. -/
def statements (symbols : NameSet) (lineLength : Nat) : List Statement :=
  (modules symbols).names.map fun module =>
    let names := (namesIn symbols module).names
    ⟨module, names,
      decide (lineLength < ("from " ++ module ++ " import " ++ ", ".intercalate names).utf8ByteSize)⟩

section Symbols

variable {symbol before last : String}

theorem splitAtLastPoint?_eq_some (h : splitAtLastPoint? symbol = some (before, last)) :
    symbol.toList = before.toList ++ '.' :: last.toList := by
  unfold splitAtLastPoint? at h
  dsimp only at h
  split at h
  · contradiction
  · next point start hdrop =>
    rw [Option.some.injEq, Prod.mk.injEq] at h
    -- The text is read backwards up to the first point, which is the last one.
    have hpoint : point = '.' := by
      have hhead := List.head?_dropWhile_not (fun c => decide (c ≠ '.')) symbol.toList.reverse
      rw [hdrop] at hhead
      simpa using hhead
    have hchars := List.takeWhile_append_dropWhile (p := fun c => decide (c ≠ '.'))
      (l := symbol.toList.reverse)
    rw [hdrop, hpoint] at hchars
    have hback := congrArg List.reverse hchars
    rw [List.reverse_reverse, List.reverse_append, List.reverse_cons, List.append_assoc,
      List.singleton_append] at hback
    rw [← h.1, ← h.2, String.toList_ofList, String.toList_ofList]
    exact hback.symm

/-- The words before the last point and the one behind it are in the symbol. -/
theorem IsDotted.isItem_splitAtLastPoint? (h : IsDotted symbol)
    (hsplit : splitAtLastPoint? symbol = some (before, last)) : IsItem before ∧ IsItem last := by
  have hchars := splitAtLastPoint?_eq_some hsplit
  rcases h with ⟨hsolid, hwords⟩
  rw [hchars, List.splitOn_append_cons_self, List.mem_append, not_or] at hwords
  have hitem : ∀ {name : String}, (∀ c ∈ name.toList, c ∈ symbol.toList) →
      [] ∉ name.toList.splitOn '.' → IsItem name := by
    refine fun {name} hsub hword => ⟨⟨?_, fun c hc => ?_⟩, fun hmem => ?_⟩
    · rintro rfl
      exact hword (by decide)
    · exact ⟨(hsolid c (hsub c hc)).1, (hsolid c (hsub c hc)).2.2⟩
    · exact (hsolid ',' (hsub ',' hmem)).2.1 rfl
  exact ⟨hitem (fun c hc => by simp [hchars, hc]) hwords.1,
    hitem (fun c hc => by simp [hchars, hc]) hwords.2⟩

/-- Modules and names of such symbols can be read. -/
theorem IsDotted.isItem_resolve (h : IsDotted symbol) :
    IsItem (resolve symbol).1 ∧ IsItem (resolve symbol).2 := by
  have hself : IsItem symbol := by
    refine ⟨⟨?_, fun c hc => ⟨(h.1 c hc).1, (h.1 c hc).2.2⟩⟩, fun hmem => (h.1 ',' hmem).2.1 rfl⟩
    rintro rfl
    exact h.2 (by decide)
  have htyping : IsItem "typing" := by decide
  have htypes : IsItem "types" := by decide
  have hextensions : IsItem "typing_extensions" := by decide
  unfold resolve
  -- Modules and names of the known symbols are words, and everything else is taken from the symbol
  -- itself.
  split_ifs
  · exact ⟨htyping, by decide⟩
  · exact ⟨htyping, by decide⟩
  · exact ⟨htyping, by decide⟩
  · exact ⟨htyping, by decide⟩
  · exact ⟨htyping, by decide⟩
  · exact ⟨htypes, hself⟩
  · exact ⟨hextensions, hself⟩
  · cases hsplit : splitAtLastPoint? symbol with
    | none => exact ⟨htyping, hself⟩
    | some parts => exact h.isItem_splitAtLastPoint? hsplit

end Symbols

section Names

variable {name : String} {names : List String}

theorem IsItem.trimChars_append (h : IsItem name) {indent : List Char}
    (hindent : ∀ c ∈ indent, Unicode.isBlank c = true) :
    trimChars (indent ++ name.toList) = name.toList := by
  have hne : name.toList ≠ [] := fun hempty => h.1.1 (String.toList_eq_nil_iff.mp hempty)
  have hsolid := solid_of_forall_mem hne fun c hc => (h.1.2 c hc).1
  exact trimChars_of_isIndented ⟨rfl, hindent, hsolid.1, hsolid.2⟩

/-- A separator of two letters, as the first one with the second at the start of each text. -/
theorem intercalate_two {α : Type} (a b : α) (l : List α) (ls : List (List α)) :
    [a, b].intercalate (l :: ls) = [a].intercalate (l :: ls.map (b :: ·)) := by
  induction ls generalizing l with
  | nil => rfl
  | cons l' ls ih =>
    rw [List.map_cons, List.intercalate_cons_cons, List.intercalate_cons_cons, ih,
      intercalate_cons_eq, intercalate_cons_eq]
    simp only [List.append_assoc, List.cons_append, List.nil_append]

/-- The names on one line are read back. -/
theorem readNames_intercalate (hne : names ≠ []) (h : ∀ n ∈ names, IsItem n) :
    readNames ([',', ' '].intercalate (names.map String.toList)) = names := by
  have hread : ∀ {indent : List Char}, (∀ c ∈ indent, Unicode.isBlank c = true) → ∀ n ∈ names,
      String.ofList (trimChars (indent ++ n.toList)) = n := by
    intro indent hindent n hn
    rw [(h n hn).trimChars_append hindent, String.ofList_toList]
  cases names with
  | nil => contradiction
  | cons first rest =>
    have hfirst := h first List.mem_cons_self
    -- Cut at the commas, all pieces but the first one begin with a blank.
    have hcommas : ∀ cs ∈ first.toList :: rest.map ((' ' :: ·) ∘ String.toList), ',' ∉ cs := by
      rw [List.forall_mem_cons, List.forall_mem_map]
      refine ⟨hfirst.2, fun n hn hmem => ?_⟩
      rcases List.mem_cons.mp hmem with heq | hmem
      · contradiction
      · exact (h n (List.mem_cons_of_mem first hn)).2 hmem
    -- The blank behind a comma goes to the next name, where it is trimmed.
    rw [List.map_cons, intercalate_two, List.map_map, readNames,
      List.splitOn_intercalate ',' hcommas (List.cons_ne_nil _ _), List.map_cons, List.map_map]
    have hself : String.ofList (trimChars ([] ++ first.toList)) = first :=
      hread (fun c hc => absurd hc List.not_mem_nil) first List.mem_cons_self
    rw [List.nil_append] at hself
    rw [hself]
    have hblank : ∀ c ∈ [' '], Unicode.isBlank c = true := List.forall_mem_singleton.mpr (by decide)
    exact congrArg _ ((List.map_congr_left fun n hn =>
      hread hblank n (List.mem_cons_of_mem first hn)).trans (List.map_id rest))

/-- The name on a line in parentheses is read back. -/
theorem readName?_nameLine (h : IsItem name) : readName? (nameLine name) = some name := by
  have hline : nameLine name = [','].intercalate [tab.toList ++ name.toList, []] := by
    simp [nameLine, String.toList_append, List.intercalate_cons_cons]
  -- The line ends with a comma and nothing behind it, so there are two pieces, and the second one
  -- is empty.
  have hcommas : ∀ cs ∈ [tab.toList ++ name.toList, []], ',' ∉ cs := by
    intro cs hcs hmem
    rw [List.mem_cons, List.mem_singleton] at hcs
    rcases hcs with rfl | rfl
    · rcases List.mem_append.mp hmem with hmem | hmem
      · exact absurd hmem (by decide)
      · exact h.2 hmem
    · contradiction
  have hnames : readNames (nameLine name) = [name, ""] := by
    rw [hline, readNames, List.splitOn_intercalate ',' hcommas (List.cons_ne_nil _ _), List.map_cons,
      h.trimChars_append Equivalence.isBlank_of_mem_tab, String.ofList_toList]
    rfl
  rw [readName?, hnames]
  rfl

end Names

section Lines

variable {module : String} {rest : List Char}

/-- The module between the keywords is read back, with anything behind them. -/
theorem readHead?_append (hmodule : IsSolid module) (rest : List Char) :
    readHead? ("from ".toList ++ (module.toList ++ (" import ".toList ++ rest))) =
      some (module, rest) := by
  have hword : ∀ c ∈ module.toList, decide (c ≠ ' ') = true := by
    intro c hc
    rw [decide_eq_true_eq]
    rintro rfl
    exact absurd (hmodule.2 ' ' hc).1 (by decide)
  have htake : (module.toList ++ (" import ".toList ++ rest)).takeWhile (· ≠ ' ') =
      module.toList := by
    rw [List.takeWhile_append_of_pos hword]
    exact List.append_nil _
  have hdrop : (module.toList ++ (" import ".toList ++ rest)).dropWhile (· ≠ ' ') =
      " import ".toList ++ rest := List.dropWhile_append_of_pos hword
  rw [readHead?, dropStart?_eq_some_iff.mpr rfl, Option.bind_eq_bind, Option.bind_some, hdrop, htake,
    dropStart?_eq_some_iff.mpr rfl, Option.bind_some, String.ofList_toList]

/-- The names in parentheses are read back, behind others. -/
theorem readLines_nameLines {names : List String} (h : ∀ n ∈ names, IsItem n) (module : String)
    (before : List String) (lines : List (List Char)) :
    readLines (some (module, before)) (names.map nameLine ++ [')'] :: lines) =
      (readLines none lines).map (⟨module, before ++ names, true⟩ :: ·) := by
  induction names generalizing before with
  | nil =>
    rw [List.map_nil, List.nil_append, readLines, if_pos rfl, List.append_nil]
  | cons n names ih =>
    have hline : nameLine n ≠ [')'] := by
      rw [nameLine, String.toList_append, String.toList_append]
      exact fun heq => absurd (List.cons.inj heq).1 (by decide)
    rw [List.map_cons, List.cons_append, readLines, if_neg hline,
      readName?_nameLine (h n List.mem_cons_self), Option.bind_eq_bind, Option.bind_some,
      ih (fun m hm => h m (List.mem_cons_of_mem n hm)), List.append_assoc, List.singleton_append]

/-- A statement is read back, broken or not, and then what is behind it is read. -/
theorem readLines_statementLines {set : NameSet} (hmodule : IsSolid module) (hne : set.names ≠ [])
    (hnames : ∀ n ∈ set.names, IsItem n) (lineLength : Nat) (lines : List (List Char)) :
    readLines none (statementLines module set lineLength ++ lines) =
      (readLines none lines).map (⟨module, set.names, decide (lineLength <
        ("from " ++ module ++ " import " ++ ", ".intercalate set.names).utf8ByteSize)⟩ :: ·) := by
  unfold statementLines
  split
  · next hfits =>
    have hline : statementLine module set.names = "from ".toList ++ (module.toList ++
        (" import ".toList ++ [',', ' '].intercalate (set.names.map String.toList))) := by
      simp [statementLine, String.toList_append, String.toList_intercalate]
    -- No name has a parenthesis in it.
    have hopen : [',', ' '].intercalate (set.names.map String.toList) ≠ ['('] := by
      intro heq
      have hmem : '(' ∉ [',', ' '].intercalate (set.names.map String.toList) :=
        not_mem_intercalate (by decide)
          (List.forall_mem_map.mpr fun n hn hmem => ((hnames n hn).1.2 _ hmem).2.1 rfl)
      exact hmem (by rw [heq]; exact List.mem_cons_self)
    rw [List.singleton_append, readLines, hline, readHead?_append hmodule, Option.bind_eq_bind,
      Option.bind_some]
    dsimp only
    rw [if_neg hopen, readNames_intercalate hne hnames, decide_eq_false (Nat.not_lt.mpr hfits)]
  -- A statement that is too long is broken: its first line ends with a parenthesis, and the names
  -- follow.
  · next hlong =>
    have hline : ("from " ++ module ++ " import (").toList = "from ".toList ++ (module.toList ++
        (" import ".toList ++ ['('])) := by
      simp [String.toList_append]
    rw [List.cons_append, readLines, hline, readHead?_append hmodule, Option.bind_eq_bind,
      Option.bind_some]
    dsimp only
    rw [if_pos rfl, List.append_assoc, decide_eq_true (Nat.not_le.mp hlong)]
    exact readLines_nameLines hnames module [] lines

end Lines

section Sets

variable {symbols : NameSet}

theorem areSolid_of_isDotted (h : ∀ symbol ∈ symbols, IsDotted symbol) : AreSolid symbols :=
  fun symbol hsymbol =>
    ⟨(h symbol hsymbol).isItem_resolve.1.1, (h symbol hsymbol).isItem_resolve.2.1⟩

theorem readLines_formatLines (h : ∀ symbol ∈ symbols, IsDotted symbol) (lineLength : Nat) :
    readLines none (formatLines symbols lineLength) = some (statements symbols lineLength) := by
  -- The induction is on any of the modules, since the rest of them is no set of symbols' modules.
  have hmodules : ∀ ms : List String, (∀ m ∈ ms, m ∈ (modules symbols).names) →
      readLines none (ms.flatMap fun m => statementLines m (namesIn symbols m) lineLength) =
        some (ms.map fun m =>
          let names := (namesIn symbols m).names
          ⟨m, names, decide (lineLength <
            ("from " ++ m ++ " import " ++ ", ".intercalate names).utf8ByteSize)⟩) := by
    intro ms
    induction ms with
    | nil => exact fun _ => rfl
    | cons m ms ih =>
      intro hms
      rcases (areSolid_of_isDotted h).of_mem_modules (hms m List.mem_cons_self) with ⟨hm, hne, _⟩
      -- A name of a statement is the end of a symbol, and so it is one word.
      have hnames : ∀ n ∈ (namesIn symbols m).names, IsItem n := by
        intro n hn
        rcases mem_namesIn_iff.mp hn with ⟨symbol, hsymbol, hresolve⟩
        have hitem := (h symbol hsymbol).isItem_resolve.2
        rwa [hresolve] at hitem
      rw [List.flatMap_cons, readLines_statementLines hm hne hnames,
        ih fun m hm => hms m (List.mem_cons_of_mem _ hm)]
      rfl
  exact hmodules _ fun _ hm => hm

theorem ne_nil_of_mem_formatLines {lineLength : Nat} {line : List Char}
    (hline : line ∈ formatLines symbols lineLength) : line ≠ [] := by
  have hstart : ∀ start more : List Char, start ≠ [] → start ++ more ≠ [] :=
    fun _ more hne => List.append_ne_nil_of_left_ne_nil hne more
  rcases List.mem_flatMap.mp hline with ⟨m, _, hline⟩
  unfold statementLines at hline
  -- Every line has a word or a bracket in it, whichever form the statement has.
  split at hline
  · rw [List.mem_singleton.mp hline]
    simp [statementLine, String.toList_append]
  · rcases List.mem_cons.mp hline with rfl | hline
    · simp [String.toList_append]
    · rcases List.mem_append.mp hline with hline | hline
      · rcases List.mem_map.mp hline with ⟨n, _, rfl⟩
        simp [nameLine, String.toList_append]
      · rw [List.mem_singleton.mp hline]
        exact List.cons_ne_nil _ _

/-- The statements for a set of symbols are read back. -/
theorem read?_format (h : ∀ symbol ∈ symbols, IsDotted symbol) (lineLength : Nat) :
    read? (format symbols lineLength) = some (statements symbols lineLength) := by
  rw [← readLines_formatLines h, read?]
  congr 1
  by_cases hmodules : (modules symbols).names = []
  · rw [format, formatLines, hmodules]
    rfl
  · -- The last line is not empty, so no line is lost where the text ends without a newline.
    have htext := toList_format hmodules lineLength
    have hlines : formatLines symbols lineLength ≠ [] := by
      intro hnil
      rw [hnil] at htext
      exact absurd htext (List.append_ne_nil_of_right_ne_nil _ (List.cons_ne_nil _ _))
    rw [← intercalate_append_newline hlines, List.append_cancel_right_eq] at htext
    have hlast := ne_nil_of_mem_formatLines (List.getLast_mem hlines)
    have hall := Equivalence.isLine_formatLines (areSolid_of_isDotted h) lineLength
    rw [← List.dropLast_append_getLast hlines] at hall
    have hread := splitLines_intercalate hall hlast
    rwa [List.dropLast_append_getLast hlines, ← htext] at hread

/-- The pairs that the statements import are those of the symbols, each once. -/
theorem mem_pairs_statements {lineLength : Nat} {pair : String × String} :
    pair ∈ (statements symbols lineLength).flatMap Statement.pairs ↔
      ∃ symbol ∈ symbols, resolve symbol = pair := by
  rw [statements, List.flatMap_map, List.mem_flatMap]
  constructor
  · rintro ⟨m, _, hpair⟩
    rcases List.mem_map.mp hpair with ⟨n, hn, rfl⟩
    exact mem_namesIn_iff.mp hn
  · rintro ⟨symbol, hsymbol, rfl⟩
    have hn := mem_namesIn_iff.mpr ⟨symbol, hsymbol, rfl⟩
    exact ⟨(resolve symbol).1, mem_modules_iff.mpr (List.ne_nil_of_mem hn),
      List.mem_map.mpr ⟨(resolve symbol).2, hn, rfl⟩⟩

theorem nodup_pairs_statements (lineLength : Nat) :
    ((statements symbols lineLength).flatMap Statement.pairs).Nodup := by
  rw [statements, List.flatMap_map, List.nodup_flatMap]
  constructor
  · intro m _
    exact ((namesIn symbols m).ascending.imp String.ne_of_lt).map _ fun n k hne heq =>
      hne (Prod.mk.inj heq).2
  · refine (modules symbols).ascending.imp fun {m k} hlt => List.disjoint_left.mpr ?_
    intro pair hm hk
    rcases List.mem_map.mp hm with ⟨n, _, rfl⟩
    rcases List.mem_map.mp hk with ⟨n', _, heq⟩
    exact String.ne_of_lt hlt (Prod.mk.inj heq).1.symm

/-- What the statements for a set of symbols import. The text can be read, and in it there is one
    statement for each module, in ascending order. A statement imports names in ascending order, and
    it is broken if it is too long for a line. All statements together import exactly the pairs of
    the symbols, none of them twice. The text is empty for no symbols only, and it does not depend on
    how the symbols were collected. -/
theorem format_denotes (symbols : NameSet) (h : ∀ symbol ∈ symbols, IsDotted symbol)
    (lineLength : Nat) :
    ∃ statements, read? (format symbols lineLength) = some statements ∧
      (statements.map (·.module)).Pairwise (· < ·) ∧
      (∀ module, module ∈ statements.map (·.module) ↔
        ∃ symbol ∈ symbols, (resolve symbol).1 = module) ∧
      (∀ s ∈ statements, s.names ≠ [] ∧ s.names.Pairwise (· < ·) ∧
        (s.isBroken = true ↔ lineLength < s.line.utf8ByteSize)) ∧
      (∀ pair, pair ∈ statements.flatMap Statement.pairs ↔
        ∃ symbol ∈ symbols, resolve symbol = pair) ∧
      (statements.flatMap Statement.pairs).Nodup ∧
      (format symbols lineLength = "" ↔ symbols = ∅) ∧
      ∀ steps : List (List String), (∀ symbol, symbol ∈ symbols ↔ ∃ step ∈ steps, symbol ∈ step) →
        format (steps.foldl NameSet.insertAll ∅) lineLength = format symbols lineLength := by
  have hmodules : (statements symbols lineLength).map (·.module) = (modules symbols).names := by
    rw [statements, List.map_map]
    exact List.map_id _
  refine ⟨_, read?_format h lineLength, ?_, fun module => ?_, fun s hs => ?_,
    fun pair => mem_pairs_statements, nodup_pairs_statements lineLength, ?_, fun steps hsteps => ?_⟩
  · rw [hmodules]
    exact (modules symbols).ascending
  · rw [hmodules]
    have hmem : module ∈ (modules symbols).names ↔ _ := NameSet.mem_ofList
    rw [hmem, List.mem_map]
    rfl
  · rcases List.mem_map.mp hs with ⟨m, hm, rfl⟩
    exact ⟨mem_modules_iff.mp hm, (namesIn symbols m).ascending, decide_eq_true_iff⟩
  · constructor
    · intro hempty
      -- The empty text has no statements, so no symbol has a pair.
      have hread := read?_format h lineLength
      rw [hempty] at hread
      have hnone : statements symbols lineLength = [] := (Option.some.inj hread).symm
      refine NameSet.ext_mem fun symbol =>
        ⟨fun hsymbol => ?_, fun hsymbol => absurd hsymbol (NameSet.not_mem_empty symbol)⟩
      have hpair : resolve symbol ∈ (statements symbols lineLength).flatMap Statement.pairs :=
        mem_pairs_statements.mpr ⟨symbol, hsymbol, rfl⟩
      rw [hnone] at hpair
      exact absurd hpair List.not_mem_nil
    · rintro rfl
      rfl
  · congr 1
    -- The steps add up to the set, and a set is its members.
    refine NameSet.ext_mem fun symbol => ?_
    rw [hsteps symbol, NameSet.mem_foldl_insertAll]
    exact or_iff_left (NameSet.not_mem_empty symbol)

/-- Three symbols for one name, and a module with a name that is too long for the line. -/
theorem format_denotes_aliases :
    let symbols := NameSet.ofList
      ["list", "decimal.Decimal", "typing.List", "NotRequired", "List", "a.b.C"]
    (∀ symbol ∈ symbols.names, IsDotted symbol) ∧
      format symbols 30 = "from a.b import C\nfrom decimal import Decimal\n" ++
        "from typing import List\nfrom typing_extensions import (\n    NotRequired,\n)" ∧
      ∃ statements, read? (format symbols 30) = some statements ∧
        (∀ pair, pair ∈ statements.flatMap Statement.pairs ↔
          ∃ symbol ∈ symbols, resolve symbol = pair) ∧
        (statements.flatMap Statement.pairs).Nodup := by
  intro symbols
  have hdotted : ∀ symbol ∈ symbols.names, IsDotted symbol := by decide +kernel
  rcases format_denotes symbols hdotted 30 with ⟨statements, hread, _, _, _, hpairs, hnodup, _⟩
  exact ⟨hdotted, by decide +kernel, statements, hread, hpairs, hnodup⟩

end Sets

end Imports

end TypeSketch
