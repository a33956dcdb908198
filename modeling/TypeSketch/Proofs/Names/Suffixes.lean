import TypeSketch.Naming
import TypeSketch.Proofs.Lists.Tables

/-!
# Suffixes of Names

What is appended to the name of a node for a part of it. A suffix is never empty, so a
part is never called what the node is called, and it never starts with a small letter of
the ASCII alphabet. The words that types without a declaration are written with have
small letters from their second letter on, so no name with a suffix is one of them: a
declared name in a type is told from a word by how it is spelled.

A name is plain if nothing in it ends a name: no bracket, comma, blank or line feed, and
no quote or colon. Identifiers are plain, and a suffix of digits leaves a name plain.

## Main definitions

* `Naming.IsSuffix`, `Naming.Extends`: Suffixes, and names with one.
* `Naming.IsPlain`: Names that nothing in them ends.

## Theorems

* `Unicode.upperCase_eq_cons`: An upper-case form has a first character, and no small one.
* `Naming.isSuffix_suffix`: What is appended for a part is a suffix.
* `Text.dropStart?_eq_some_iff`, `Naming.dropStart?_eq_some_iff`: What follows a start.
* `Naming.Extends.ne`, `Naming.Extends.not_mem`: A name with a suffix is another name, and no
  word with small letters.
* `Naming.isPlain_of_isIdentifier`: Identifiers are plain.
-/

namespace TypeSketch

namespace Unicode

/-- Whether a character is a small letter of the ASCII alphabet. -/
def IsSmall (c : Char) : Prop := 0x61 ≤ c.toNat ∧ c.toNat ≤ 0x7A

instance (c : Char) : Decidable (IsSmall c) :=
  inferInstanceAs (Decidable (_ ∧ _))

/-- A number that is no code point stands for the code point zero. -/
theorem toNat_ofNat_cases (code : Nat) :
    (Char.ofNat code).toNat = code ∨ (Char.ofNat code).toNat = 0 := by
  by_cases hvalid : code.isValidChar
  · rw [Char.ofNat, dif_pos hvalid]
    exact Or.inl rfl
  · rw [Char.ofNat, dif_neg hvalid]
    exact Or.inr rfl

theorem not_isSmall_ofNat {code : Nat} (h : code < 0x61 ∨ 0x7A < code) :
    ¬IsSmall (Char.ofNat code) := by
  have hcode := toNat_ofNat_cases code
  rw [IsSmall]
  omega

/-- No expansion is empty or starts with a small letter. -/
theorem expansion_eq_cons {code : Nat} {codes : List Nat}
    (h : caseExpansions.lookup code = some codes) :
    ∃ first rest, codes = first :: rest ∧ (first < 0x61 ∨ 0x7A < first) := by
  have hall : caseExpansions.all (fun e =>
      match e.2 with
      | first :: _ => first < 0x61 || 0x7A < first
      | [] => false) = true := by decide
  have hcodes := List.all_eq_true.mp hall _ (mem_of_lookup_eq_some h)
  cases codes with
  | nil => contradiction
  | cons first rest => exact ⟨first, rest, rfl, by simpa using hcodes⟩

/-- No run has a small letter among its targets. -/
theorem image_not_small {run : CaseRun} (hrun : run ∈ caseRuns) {code image : Nat}
    (h : run.image? code = some image) : image < 0x61 ∨ 0x7A < image := by
  have hall : caseRuns.all (fun run =>
      run.target + (run.last - run.first) < 0x61 || 0x7A < run.target) = true := by decide
  have htarget := List.all_eq_true.mp hall run hrun
  rw [Bool.or_eq_true, decide_eq_true_eq, decide_eq_true_eq] at htarget
  rw [CaseRun.image?] at h
  split at h
  · next hmember =>
    rw [Option.some.injEq] at h
    omega
  · contradiction

/-- The upper-case form of a character is not empty, and it does not start with a small
    letter. -/
theorem upperCase_eq_cons (c : Char) : ∃ d rest, upperCase c = d :: rest ∧ ¬IsSmall d := by
  rw [upperCase]
  cases hlookup : caseExpansions.lookup c.toNat with
  | some codes =>
    rcases expansion_eq_cons hlookup with ⟨first, rest, hcodes, hfirst⟩
    exact ⟨Char.ofNat first, rest.map Char.ofNat, by rw [hcodes]; rfl, not_isSmall_ofNat hfirst⟩
  | none =>
    cases hfind : caseRuns.findSome? (·.image? c.toNat) with
    | some image =>
      rcases List.exists_of_findSome?_eq_some hfind with ⟨run, hrun, himage⟩
      exact ⟨Char.ofNat image, [], rfl, not_isSmall_ofNat (image_not_small hrun himage)⟩
    | none =>
      -- Every small letter is in the run of the alphabet.
      refine ⟨c, [], rfl, fun hsmall => ?_⟩
      rw [List.findSome?_eq_none_iff] at hfind
      have hletters := hfind ⟨0x61, 0x7A, 1, 0x41⟩ (by decide)
      rw [CaseRun.image?, if_pos ⟨hsmall.1, hsmall.2, Nat.mod_one _⟩] at hletters
      contradiction

end Unicode

namespace Text

theorem dropStart?_eq_some_iff {start cs rest : List Char} :
    dropStart? start cs = some rest ↔ cs = start ++ rest := by
  induction start generalizing cs with
  | nil => simp only [dropStart?, Option.some.injEq, List.nil_append]
  | cons c start ih =>
    cases cs with
    | nil => simp only [dropStart?, reduceCtorEq, List.cons_append]
    | cons d cs =>
      rw [dropStart?, List.cons_append, List.cons.injEq]
      split
      · next heq => rw [ih, heq]; simp only [true_and]
      · next hne => simp only [reduceCtorEq, Ne.symm hne, false_and]

end Text

namespace Naming

/-- What can be appended to the name of a node for a part of it. -/
def IsSuffix (s : String) : Prop := ∃ c rest, s.toList = c :: rest ∧ ¬Unicode.IsSmall c

/-- A name that another one has been made from by appending a suffix. -/
def Extends (parent name : String) : Prop := ∃ suffix, IsSuffix suffix ∧ name = parent ++ suffix

/-- The characters that end a name where declarations are written. -/
def delimiters : List Char := ['[', ']', ',', ' ', '\n', '(', ':', '"']

/-- No character of the name ends it. -/
def IsPlain (name : String) : Prop := ∀ c ∈ name.toList, c ∉ delimiters

instance (name : String) : Decidable (IsPlain name) :=
  decidable_of_iff (name.toList.all (· ∉ delimiters) = true)
    (by simp only [List.all_eq_true, decide_eq_true_eq, IsPlain])

theorem camel_eq_cons (cs : List Char) :
    camel true cs = [] ∨ ∃ d rest, camel true cs = d :: rest ∧ ¬Unicode.IsSmall d := by
  induction cs with
  | nil => exact Or.inl rfl
  | cons c cs ih =>
    rw [camel]
    split
    · exact ih
    · rcases Unicode.upperCase_eq_cons c with ⟨d, rest, hupper, hsmall⟩
      exact Or.inr ⟨d, rest ++ camel false cs, by rw [if_pos rfl, hupper]; rfl, hsmall⟩

theorem isSuffix_append {s t : String} (h : IsSuffix s) : IsSuffix (s ++ t) := by
  rcases h with ⟨c, rest, hs, hsmall⟩
  exact ⟨c, rest ++ t.toList, by rw [String.toList_append, hs]; rfl, hsmall⟩

theorem isSuffix_fallback (key : ChildKey) : IsSuffix key.fallback := by
  cases key with
  | field v position =>
    exact isSuffix_append ⟨'F', ['i', 'e', 'l', 'd'], by decide, by decide⟩
  | element item =>
    change IsSuffix "Element"
    exact ⟨'E', ['l', 'e', 'm', 'e', 'n', 't'], by decide, by decide⟩

theorem isSuffix_suffix (key : ChildKey) : IsSuffix key.suffix := by
  dsimp only [ChildKey.suffix]
  split
  · exact isSuffix_fallback key
  · next hempty =>
    -- The words of the key are joined if there are any, and the fallback stands for none.
    rcases camel_eq_cons key.describe.toList with hnil | ⟨d, rest, hcamel, hsmall⟩
    · rw [upperCamel, hnil] at hempty
      exact absurd (by decide) hempty
    · exact ⟨d, rest, by rw [upperCamel, String.toList_ofList, hcamel], hsmall⟩

theorem extends_childName (parent : String) (key : ChildKey) :
    Extends parent (childName parent key) :=
  ⟨key.suffix, isSuffix_suffix key, rfl⟩

theorem Extends.append {parent name : String} (h : Extends parent name) (more : String) :
    Extends parent (name ++ more) := by
  rcases h with ⟨suffix, hsuffix, rfl⟩
  exact ⟨suffix ++ more, isSuffix_append hsuffix, String.append_assoc⟩

theorem Extends.trans {a b c : String} (hab : Extends a b) (hbc : Extends b c) : Extends a c := by
  rcases hbc with ⟨suffix, _, rfl⟩
  exact hab.append suffix

/-- A name with a suffix is another name. -/
theorem Extends.ne {parent name : String} (h : Extends parent name) : name ≠ parent := by
  rcases h with ⟨suffix, ⟨c, rest, hsuffix, _⟩, rfl⟩
  intro heq
  have hlength := congrArg (fun s : String => s.toList.length) heq
  simp only [String.toList_append, List.length_append, hsuffix, List.length_cons] at hlength
  omega

/-- A name with a suffix is none of some words with small letters only behind their first
    one. -/
theorem Extends.not_mem {parent name : String} (h : Extends parent name) (hne : parent ≠ "")
    {words : List String}
    (hsmall : ∀ word ∈ words, word.toList.tail.all (Unicode.IsSmall ·) = true) : name ∉ words := by
  rcases h with ⟨suffix, ⟨c, rest, hsuffix, hcapital⟩, rfl⟩
  intro hword
  refine hcapital (decide_eq_true_eq.mp (List.all_eq_true.mp (hsmall _ hword) c ?_))
  rw [String.toList_append, hsuffix]
  -- The suffix is behind the first character, because the parent has one.
  cases hparent : parent.toList with
  | nil => exact absurd (String.toList_eq_nil_iff.mp hparent) hne
  | cons d others => exact List.mem_append_right _ List.mem_cons_self

theorem dropStart?_eq_some_iff {start name suffix : String} :
    dropStart? start name = some suffix ↔ name = start ++ suffix := by
  rw [dropStart?, Option.map_eq_some_iff]
  constructor
  · rintro ⟨rest, hrest, rfl⟩
    rw [← String.toList_inj, String.toList_append, String.toList_ofList]
    exact Text.dropStart?_eq_some_iff.mp hrest
  · rintro rfl
    exact ⟨suffix.toList, Text.dropStart?_eq_some_iff.mpr (String.toList_append), String.ofList_toList⟩

section Plain

theorem isPlain_append {s t : String} : IsPlain (s ++ t) ↔ IsPlain s ∧ IsPlain t := by
  simp only [IsPlain, String.toList_append, List.mem_append, or_imp, forall_and]

theorem isPlain_of_isIdentifier {name : String} (h : isIdentifier name = true) : IsPlain name := by
  -- No delimiter can stand in an identifier, at its start or later.
  have hdelimiters : delimiters.all (fun c =>
      !(c = '_' || Unicode.isIdentifierStart c) && !Unicode.isIdentifierContinue c) = true := by
    decide
  rw [isIdentifier, Bool.and_eq_true] at h
  intro c hc hdelimiter
  have hword := h.1
  have hnever := List.all_eq_true.mp hdelimiters c hdelimiter
  rw [Bool.and_eq_true, Bool.not_eq_true', Bool.not_eq_true'] at hnever
  cases hchars : name.toList with
  | nil =>
    rw [hchars] at hc
    exact List.not_mem_nil hc
  | cons d rest =>
    rw [hchars] at hc hword
    rw [isWord, Bool.and_eq_true, List.all_eq_true] at hword
    -- The first character starts a word, and the other ones go on in it.
    rcases List.mem_cons.mp hc with rfl | hc
    · rw [hnever.1] at hword
      exact Bool.false_ne_true hword.1
    · have hrest := hword.2 c hc
      rw [hnever.2] at hrest
      exact Bool.false_ne_true hrest

theorem isDigit_of_mem_toString {n : Nat} {c : Char} (hc : c ∈ (toString n).toList) :
    c.isDigit = true := by
  refine Nat.isDigit_of_mem_toDigits (b := 10) (n := n) (by decide) (by decide) ?_
  rw [← Nat.toList_repr]
  exact hc

theorem isPlain_toString (n : Nat) : IsPlain (toString n) := by
  have hdelimiters : delimiters.all (!·.isDigit) = true := by decide
  intro c hc hdelimiter
  have hnever := List.all_eq_true.mp hdelimiters c hdelimiter
  rw [isDigit_of_mem_toString hc] at hnever
  exact Bool.false_ne_true hnever

end Plain

end Naming

end TypeSketch
