import TypeSketch.Proofs.Names.ChildNames

/-!
# Camel Case

What upper camel case does to texts that have been put together. A separator ends a word
wherever it stands, so texts with separators between them are written in camel case one by
one, and separators alone leave nothing. What is left has no separator in it: it is a single
word, and as its first character is in upper case already, it stays what it is.

That an upper-case form starts with a character that is its own is a fact about the table of
the forms. No run has a target among the members of another one. Most runs lie elsewhere, and
where the letters of an alphabet alternate, the targets are the letters in between. So runs
are compared by their ends, and code points one by one are not.

## Main definitions

* `Unicode.CaseRun.isApart`: The targets of a run are no members of another.

## Theorems

* `Unicode.upperCase_head`: The first character of an upper-case form.
* `Naming.camel_append_separators`: Texts with separators between them.
* `Naming.upperCamel_intercalate`: Texts that have been joined.
* `Naming.camel_eq_nil_iff`: What leaves nothing.
* `Naming.upperCamel_homomorphism`: Upper camel case respects words.
-/

namespace TypeSketch

namespace Unicode

section Underscores

theorem eq_of_ofNat_eq_underscore {code : Nat} (h : Char.ofNat code = '_') : code = 0x5F := by
  have hcode : '_'.toNat = code ∨ '_'.toNat = 0 := by
    rw [← h]
    exact toNat_ofNat_cases code
  have hunderscore : '_'.toNat = 0x5F := by decide
  omega

/-- No run has the underscore among its targets. -/
theorem image_ne_underscore {run : CaseRun} (hrun : run ∈ caseRuns) {code image : Nat}
    (h : run.image? code = some image) : image ≠ 0x5F := by
  have hall : caseRuns.all (fun run =>
      run.target + (run.last - run.first) < 0x5F || 0x5F < run.target) = true := by decide
  have htarget := List.all_eq_true.mp hall run hrun
  rw [Bool.or_eq_true, decide_eq_true_eq, decide_eq_true_eq] at htarget
  rw [CaseRun.image?] at h
  split at h
  · next hmember =>
    rw [Option.some.injEq] at h
    omega
  · contradiction

/-- Only the underscore itself has an underscore in its upper-case form. -/
theorem underscore_not_mem_upperCase {c : Char} (h : c ≠ '_') : '_' ∉ upperCase c := by
  have hall : caseExpansions.all (fun e => e.2.all (· ≠ 0x5F)) = true := by decide
  intro hmem
  rw [upperCase] at hmem
  -- The upper-case form is a list from the one table, an image from the other, or the character
  -- itself.
  cases hlookup : caseExpansions.lookup c.toNat with
  | some codes =>
    rw [hlookup] at hmem
    rcases List.mem_map.mp hmem with ⟨code, hcode, heq⟩
    have hcodes := List.all_eq_true.mp hall _ (mem_of_lookup_eq_some hlookup)
    have hne := decide_eq_true_eq.mp (List.all_eq_true.mp hcodes code hcode)
    exact hne (eq_of_ofNat_eq_underscore heq)
  | none =>
    rw [hlookup] at hmem
    cases hfind : caseRuns.findSome? (·.image? c.toNat) with
    | some image =>
      rw [hfind] at hmem
      rcases List.exists_of_findSome?_eq_some hfind with ⟨run, hrun, himage⟩
      exact image_ne_underscore hrun himage
        (eq_of_ofNat_eq_underscore (List.mem_singleton.mp hmem).symm)
    | none =>
      rw [hfind] at hmem
      exact h (List.mem_singleton.mp hmem).symm

end Underscores

section UpperCase

/-- Whether no target of the run is a member of the other: they lie before it or behind it, or
    the members of the other one are every second code point and the targets those between. -/
def CaseRun.isApart (run other : CaseRun) : Bool :=
  (run.target + (run.last - run.first)).blt other.first || other.last.blt run.target ||
    (other.step == 2 && (run.step == 2 || run.first == run.last) &&
      (run.target + other.first) % 2 == 1)

/-- A single code point as a run from it to itself. -/
def CaseRun.single (code : Nat) : CaseRun := ⟨code, code, 1, code⟩

/-- A code point is a member of the run from it to itself. -/
theorem CaseRun.image?_single (code : Nat) : (single code).image? code = some code := by
  rw [image?, single, if_pos ⟨Nat.le_refl _, Nat.le_refl _, Nat.mod_one _⟩, Nat.sub_self]
  rfl

theorem CaseRun.image?_eq_none_of_isApart {run other : CaseRun} (hapart : run.isApart other = true)
    {code image : Nat} (h : run.image? code = some image) : other.image? image = none := by
  simp only [isApart, Bool.or_eq_true, Bool.and_eq_true, Nat.blt_eq, beq_iff_eq] at hapart
  rw [image?] at h ⊢
  split at h
  · next hmember =>
    rcases hmember with ⟨hfirst, hlast, hstep⟩
    rw [Option.some.injEq] at h
    refine if_neg ?_
    rintro ⟨hlo, hhi, heven⟩
    -- The target lies outside the other run, or within it at the wrong distance.
    rcases hapart with (hbefore | hbehind) | ⟨⟨hother, hrun⟩, hodd⟩
    · omega
    · omega
    · -- The member is an even number of code points behind the first one.
      have hmember : (code - run.first) % 2 = 0 := by
        rcases hrun with hrun | hrun
        · rwa [hrun] at hstep
        · omega
      rw [hother] at heven
      omega
  · contradiction

/-- The code point has no upper-case form but itself. -/
def IsOwnUpperCase (code : Nat) : Prop :=
  caseExpansions.lookup code = none ∧ caseRuns.findSome? (·.image? code) = none

/-- What is apart from all runs and all expanded code points is its own upper-case form. -/
theorem isOwnUpperCase_of_isApart {run : CaseRun} (hruns : caseRuns.all run.isApart = true)
    (hexpansions : caseExpansions.all (fun e => run.isApart (.single e.1)) = true)
    {code image : Nat} (h : run.image? code = some image) : IsOwnUpperCase image := by
  constructor
  · refine List.lookup_eq_none_iff.mpr fun e he => bne_iff_ne.mpr ?_
    rintro rfl
    have hnone := CaseRun.image?_eq_none_of_isApart (List.all_eq_true.mp hexpansions e he) h
    rw [CaseRun.image?_single] at hnone
    contradiction
  · exact List.findSome?_eq_none_iff.mpr fun other hother =>
      CaseRun.image?_eq_none_of_isApart (List.all_eq_true.mp hruns other hother) h

theorem targets_apart : caseRuns.all (fun run =>
    caseRuns.all run.isApart && caseExpansions.all fun e => run.isApart (.single e.1)) = true := by
  decide +kernel

theorem expansions_apart : caseExpansions.all (fun e => e.2.head?.all fun code =>
    caseRuns.all (CaseRun.single code).isApart &&
      caseExpansions.all fun e => (CaseRun.single code).isApart (.single e.1)) = true := by
  decide +kernel

theorem IsOwnUpperCase.upperCase_ofNat {code : Nat} (h : IsOwnUpperCase code) :
    upperCase (Char.ofNat code) = [Char.ofNat code] := by
  have hzero : upperCase (Char.ofNat 0) = [Char.ofNat 0] := by decide
  rcases toNat_ofNat_cases code with heq | heq
  · rw [upperCase, heq, h.1, h.2]
  · rwa [← Char.ofNat_toNat (Char.ofNat code), heq]

/-- The first character of an upper-case form is its own upper-case form. -/
theorem upperCase_head {c d : Char} {rest : List Char} (h : upperCase c = d :: rest) :
    upperCase d = [d] := by
  rw [upperCase] at h
  -- The first character of the form has no image and no expansion: that is checked for the
  -- expansions and for the runs, and where there is neither, the form is the character.
  cases hlookup : caseExpansions.lookup c.toNat with
  | some codes =>
    rw [hlookup] at h
    have hexpansion := List.all_eq_true.mp expansions_apart _ (mem_of_lookup_eq_some hlookup)
    cases codes with
    | nil => contradiction
    | cons code codes =>
      rw [List.head?_cons, Option.all_some, Bool.and_eq_true] at hexpansion
      change Char.ofNat code :: codes.map Char.ofNat = d :: rest at h
      rw [List.cons.injEq] at h
      rw [← h.1]
      exact (isOwnUpperCase_of_isApart hexpansion.1 hexpansion.2
        (CaseRun.image?_single code)).upperCase_ofNat
  | none =>
    rw [hlookup] at h
    cases hfind : caseRuns.findSome? (·.image? c.toNat) with
    | some image =>
      rw [hfind, List.cons.injEq] at h
      rcases List.exists_of_findSome?_eq_some hfind with ⟨run, hrun, himage⟩
      have htargets := List.all_eq_true.mp targets_apart run hrun
      rw [Bool.and_eq_true] at htargets
      rw [← h.1]
      exact (isOwnUpperCase_of_isApart htargets.1 htargets.2 himage).upperCase_ofNat
    | none =>
      rw [hfind, List.cons.injEq] at h
      rw [← h.1, upperCase, hlookup, hfind]

end UpperCase

end Unicode

namespace Naming

variable {atStart : Bool} {c : Char} {cs rest : List Char}

theorem isSeparator_eq_false_iff :
    isSeparator c = false ↔ c ≠ '_' ∧ Unicode.isIdentifierContinue c = true := by
  rw [isSeparator, Bool.or_eq_false_iff, decide_eq_false_iff_not, Bool.not_eq_false']

/-- The upper-case form of a character in a word has no separator. -/
theorem isSeparator_of_mem_upperCase (hc : isSeparator c = false) {d : Char}
    (hd : d ∈ Unicode.upperCase c) : isSeparator d = false := by
  rw [isSeparator_eq_false_iff] at hc ⊢
  refine ⟨?_, Unicode.isIdentifierContinue_upperCase hc.2 hd⟩
  rintro rfl
  exact Unicode.underscore_not_mem_upperCase hc.1 hd

/-- No separator is left in camel case. -/
theorem isSeparator_of_mem_camel {d : Char} (hd : d ∈ camel atStart cs) : isSeparator d = false := by
  induction cs generalizing atStart with
  | nil => exact absurd hd List.not_mem_nil
  | cons c cs ih =>
    rw [camel] at hd
    split at hd
    · exact ih hd
    · next hc =>
      rw [Bool.not_eq_true] at hc
      rcases List.mem_append.mp hd with hd | hd
      · cases atStart with
        | true => exact isSeparator_of_mem_upperCase hc hd
        | false => rwa [List.mem_singleton.mp hd]
      · exact ih hd

/-- An underscore separates words, so none is left. -/
theorem underscore_not_mem_upperCamel (s : String) : '_' ∉ (upperCamel s).toList := by
  rw [upperCamel, String.toList_ofList]
  exact fun h => (isSeparator_eq_false_iff.mp (isSeparator_of_mem_camel h)).1 rfl

/-- Behind a separator a new word starts, whatever has been before. -/
theorem camel_append_separator (hc : isSeparator c = true) (atStart : Bool)
    (cs rest : List Char) :
    camel atStart (cs ++ c :: rest) = camel atStart cs ++ camel true rest := by
  induction cs generalizing atStart with
  | nil => simp only [List.nil_append, camel, hc, if_true]
  | cons d cs ih =>
    rw [List.cons_append, camel, camel]
    split
    · exact ih true
    · rw [ih false, List.append_assoc]

/-- Separators at the start of a text leave nothing. -/
theorem camel_separators_append {between : List Char}
    (h : ∀ c ∈ between, isSeparator c = true) (rest : List Char) :
    camel true (between ++ rest) = camel true rest := by
  induction between with
  | nil => rfl
  | cons c between ih =>
    rw [List.forall_mem_cons] at h
    rw [List.cons_append, camel, if_pos h.1, ih h.2]

/-- Texts with separators between them are written in camel case one by one. -/
theorem camel_append_separators {between : List Char} (hne : between ≠ [])
    (h : ∀ c ∈ between, isSeparator c = true) (atStart : Bool) (cs rest : List Char) :
    camel atStart (cs ++ between ++ rest) = camel atStart cs ++ camel true rest := by
  rcases List.exists_cons_of_ne_nil hne with ⟨c, others, rfl⟩
  rw [List.forall_mem_cons] at h
  rw [List.append_assoc, List.cons_append, camel_append_separator h.1,
    camel_separators_append h.2]

/-- Joined texts are written in camel case one by one. -/
theorem upperCamel_intercalate (texts : List String) :
    upperCamel ("_".intercalate texts) = String.join (texts.map upperCamel) := by
  have hseparator : isSeparator '_' = true := by decide
  have hchars : ∀ ls : List (List Char),
      camel true (['_'].intercalate ls) = ls.flatMap (camel true) := by
    intro ls
    induction ls with
    | nil => rfl
    | cons l ls ih =>
      cases ls with
      | nil => simp
      | cons l' ls =>
        -- Every text but the last one is followed by a separator.
        rw [List.intercalate_cons_cons, List.append_assoc, List.singleton_append,
          camel_append_separator hseparator, ih]
        rfl
  have htext : ∀ s, (upperCamel s).toList = camel true s.toList := fun s => String.toList_ofList
  rw [← String.toList_inj, htext, String.toList_intercalate, String.toList_join, List.flatMap_map]
  simp only [htext]
  rw [← List.flatMap_map]
  exact hchars _

/-- Separators and nothing else leave nothing. -/
theorem camel_eq_nil_iff : camel atStart cs = [] ↔ ∀ c ∈ cs, isSeparator c = true := by
  induction cs generalizing atStart with
  | nil => simp [camel]
  | cons c cs ih =>
    rw [camel, List.forall_mem_cons]
    split
    · next hc => rw [ih, and_iff_right hc]
    · next hc =>
      -- An upper-case form has at least one character, as the character itself has.
      refine iff_of_false (fun hnil => ?_) fun hall => hc hall.1
      rcases Unicode.upperCase_eq_cons c with ⟨d, others, hupper, _⟩
      cases atStart <;> simp [hupper] at hnil

/-- Inside a word, camel case changes nothing. -/
theorem camel_false_of_word (h : ∀ c ∈ cs, isSeparator c = false) : camel false cs = cs := by
  induction cs with
  | nil => rfl
  | cons c cs ih =>
    rw [List.forall_mem_cons] at h
    rw [camel, h.1, if_neg Bool.false_ne_true, if_neg Bool.false_ne_true, ih h.2]
    rfl

/-- What is left of a text starts in upper case. -/
theorem upperCase_head_camel {d : Char} (h : camel true cs = d :: rest) :
    Unicode.upperCase d = [d] := by
  induction cs with
  | nil => contradiction
  | cons c cs ih =>
    rw [camel] at h
    split at h
    · exact ih h
    · rcases Unicode.upperCase_eq_cons c with ⟨e, others, hupper, _⟩
      rw [if_pos rfl, hupper, List.cons_append, List.cons.injEq] at h
      rw [← h.1]
      exact Unicode.upperCase_head hupper

/-- Camel case is one word, and stays as it is. -/
theorem camel_camel (cs : List Char) : camel true (camel true cs) = camel true cs := by
  cases hcamel : camel true cs with
  | nil => rfl
  | cons d rest =>
    have hword : ∀ c ∈ d :: rest, isSeparator c = false := by
      rw [← hcamel]
      exact fun c => isSeparator_of_mem_camel
    rw [List.forall_mem_cons] at hword
    rw [camel, hword.1, if_neg Bool.false_ne_true, if_pos rfl, upperCase_head_camel hcamel,
      camel_false_of_word hword.2]
    rfl

/-- Texts with separators between them, and at least one, are written in upper camel case one
    by one. No separator is left, nothing is left of separators alone and of no other text, and
    what is left stays as it is. -/
theorem upperCamel_homomorphism (a b between : String) :
    (between ≠ "" → (∀ c ∈ between.toList, isSeparator c = true) →
      upperCamel (a ++ between ++ b) = upperCamel a ++ upperCamel b) ∧
    (∀ c ∈ (upperCamel a).toList, isSeparator c = false) ∧
    (upperCamel a = "" ↔ ∀ c ∈ a.toList, isSeparator c = true) ∧
    upperCamel (upperCamel a) = upperCamel a := by
  refine ⟨fun hne hbetween => ?_, fun c hc => ?_, ?_, ?_⟩
  · have hchars : between.toList ≠ [] := fun hnil => hne (String.toList_eq_nil_iff.mp hnil)
    rw [upperCamel, upperCamel, upperCamel, String.toList_append, String.toList_append,
      camel_append_separators hchars hbetween, String.ofList_append]
  · rw [upperCamel, String.toList_ofList] at hc
    exact isSeparator_of_mem_camel hc
  · rw [← camel_eq_nil_iff, upperCamel, ← String.toList_eq_nil_iff, String.toList_ofList]
  · rw [upperCamel, upperCamel, String.toList_ofList, camel_camel]

/-- A word whose first letter has an upper-case form of two, behind a word with a letter of
    that kind inside. -/
theorem upperCamel_homomorphism_letters :
    "_- $" ≠ "" ∧ (∀ c ∈ "_- $".toList, isSeparator c = true) ∧
      upperCamel ("größe" ++ "_- $" ++ "ßeta") = upperCamel "größe" ++ upperCamel "ßeta" ∧
      upperCamel "größe" ++ upperCamel "ßeta" = "GrößeSSeta" := by
  have hne : "_- $" ≠ "" := by decide
  have hall : "_- $".toList.all isSeparator = true := by decide
  have hseparators : ∀ c ∈ "_- $".toList, isSeparator c = true := List.all_eq_true.mp hall
  exact ⟨hne, hseparators, (upperCamel_homomorphism "größe" "ßeta" "_- $").1 hne hseparators,
    by decide⟩

end Naming

end TypeSketch
