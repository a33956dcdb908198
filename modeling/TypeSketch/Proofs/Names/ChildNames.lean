import TypeSketch.Proofs.Names.Identifiers

/-!
# Names of Parts

What is appended to the name of a node for a part of it can stand in an identifier, whatever
the key is. Camel case drops the characters that cannot, and the upper-case form of one that
can is made of such characters again. So a part of something that an identifier names is
named by an identifier, and no key makes inference fail.

That upper-case forms go on as identifiers do is a fact about two tables of Unicode. Nearly
every run of the one has its targets within one range of the other, so an interval is looked
up at once, and single code points only where that is not enough.

## Main definitions

* `Unicode.coversInterval`: An interval within one of some ranges.

## Theorems

* `Unicode.isIdentifierContinue_upperCase`: Upper-case forms of characters in identifiers.
* `Naming.isIdentifier_childName`: Names of parts are identifiers.
* `Builder.child_eq_node`, `Inference.child_eq_node`: No key makes inference fail.
-/

namespace TypeSketch

namespace Unicode

/-- Whether the code points from `lo` to `hi` lie in one of the ranges. -/
def coversInterval (lo hi : Nat) : List (Nat × Nat) → Bool
  | [] => false
  | (first, last) :: rest =>
    first.ble lo && (hi.ble last || (last.blt lo && coversInterval lo hi rest))

theorem inRanges_of_coversInterval {lo hi code : Nat} {ranges : List (Nat × Nat)}
    (h : coversInterval lo hi ranges = true) (hlo : lo ≤ code) (hhi : code ≤ hi) :
    inRanges code ranges = true := by
  induction ranges with
  | nil => contradiction
  | cons r rest ih =>
    simp only [coversInterval, Bool.and_eq_true, Bool.or_eq_true, Nat.ble_eq, Nat.blt_eq] at h
    rcases h with ⟨hfirst, hlast | ⟨hlast, hrest⟩⟩
    · rw [inRanges, if_neg (by omega), if_pos (by omega)]
    · rw [inRanges, if_neg (by omega), if_neg (by omega), ih hrest]

/-- The code points of identifiers are characters. -/
theorem isIdentifierContinue_ofNat {code : Nat}
    (h : inRanges code identifierContinueRanges = true) :
    isIdentifierContinue (Char.ofNat code) = true := by
  have hvalid : identifierContinueRanges.all (fun r =>
      r.2 < 0xD800 || (0xDFFF < r.1 && r.2 < 0x110000)) = true := by decide +kernel
  rcases exists_range_of_inRanges h with ⟨r, hr, hfirst, hlast⟩
  have hrange := List.all_eq_true.mp hvalid r hr
  simp only [Bool.or_eq_true, Bool.and_eq_true, decide_eq_true_eq] at hrange
  have hchar : code.isValidChar := by
    rw [Nat.isValidChar]
    omega
  have hcode : (Char.ofNat code).toNat = code := by
    rw [Char.ofNat, dif_pos hchar]
    rfl
  rw [isIdentifierContinue, hcode]
  exact h

/-- Every run has all of its targets in one range, or no member in any, or each target of a
    member alone in one. -/
theorem targets_covered : caseRuns.all (fun run =>
    coversInterval run.target (run.target + (run.last - run.first)) identifierContinueRanges ||
      identifierContinueRanges.all (fun r => r.2.blt run.first || run.last.blt r.1) ||
      (List.range (run.last + 1 - run.first)).all fun i => i % run.step != 0 ||
        coversInterval (run.target + i) (run.target + i) identifierContinueRanges) = true := by
  decide +kernel

/-- The image of a code point of identifiers under a run is one. -/
theorem inRanges_image {run : CaseRun} (hrun : run ∈ caseRuns) {code image : Nat}
    (hcode : inRanges code identifierContinueRanges = true) (h : run.image? code = some image) :
    inRanges image identifierContinueRanges = true := by
  rw [CaseRun.image?] at h
  split at h
  · next hmember =>
    rcases hmember with ⟨hfirst, hlast, hstep⟩
    rw [Option.some.injEq] at h
    have hcases := List.all_eq_true.mp targets_covered run hrun
    rw [Bool.or_eq_true, Bool.or_eq_true] at hcases
    -- All targets are covered, or the source is no code point of identifiers, or this target is
    -- covered by itself.
    rcases hcases with (hcovers | hnone) | hpoints
    · exact inRanges_of_coversInterval hcovers (by omega) (by omega)
    · rcases exists_range_of_inRanges hcode with ⟨r, hr, hbelow, habove⟩
      have hapart := List.all_eq_true.mp hnone r hr
      rw [Bool.or_eq_true, Nat.blt_eq, Nat.blt_eq] at hapart
      omega
    · have hpoint := List.all_eq_true.mp hpoints (code - run.first) (List.mem_range.mpr (by omega))
      rw [hstep, bne_self_eq_false, Bool.false_or] at hpoint
      exact inRanges_of_coversInterval hpoint (by omega) (by omega)
  · contradiction

theorem expansions_continue : caseExpansions.all (fun e =>
    e.2.all fun code => coversInterval code code identifierContinueRanges) = true := by
  decide +kernel

/-- The upper-case form of a character in an identifier can stand there, too. -/
theorem isIdentifierContinue_upperCase {c d : Char} (hc : isIdentifierContinue c = true)
    (hd : d ∈ upperCase c) : isIdentifierContinue d = true := by
  rw [upperCase] at hd
  -- Both tables have been checked, and without an entry in either the character stays.
  cases hlookup : caseExpansions.lookup c.toNat with
  | some codes =>
    rw [hlookup] at hd
    rcases List.mem_map.mp hd with ⟨code, hcode, rfl⟩
    have hexpansion := List.all_eq_true.mp expansions_continue _ (mem_of_lookup_eq_some hlookup)
    have hcovers := List.all_eq_true.mp hexpansion code hcode
    exact isIdentifierContinue_ofNat
      (inRanges_of_coversInterval hcovers (Nat.le_refl _) (Nat.le_refl _))
  | none =>
    rw [hlookup] at hd
    cases hfind : caseRuns.findSome? (·.image? c.toNat) with
    | some image =>
      rw [hfind] at hd
      rcases List.exists_of_findSome?_eq_some hfind with ⟨run, hrun, himage⟩
      rw [List.mem_singleton.mp hd]
      exact isIdentifierContinue_ofNat (inRanges_image hrun hc himage)
    | none =>
      rw [hfind] at hd
      rwa [List.mem_singleton.mp hd]

end Unicode

namespace Naming

theorem isIdentifierContinue_of_mem_camel {atStart : Bool} {cs : List Char} {d : Char}
    (hd : d ∈ camel atStart cs) : Unicode.isIdentifierContinue d = true := by
  induction cs generalizing atStart with
  | nil => exact absurd hd List.not_mem_nil
  | cons c cs ih =>
    rw [camel] at hd
    -- A separator is dropped, and every other character can go on an identifier, as can its
    -- upper-case form.
    split at hd
    · exact ih hd
    · next hseparator =>
      have hc : Unicode.isIdentifierContinue c = true := by
        rw [isSeparator, Bool.or_eq_true, not_or, Bool.not_eq_true', Bool.not_eq_false] at hseparator
        exact hseparator.2
      rcases List.mem_append.mp hd with hd | hd
      · cases atStart with
        | true => exact Unicode.isIdentifierContinue_upperCase hc hd
        | false => rwa [List.mem_singleton.mp hd]
      · exact ih hd

/-- What is appended for a part goes on as identifiers do. -/
theorem isIdentifierContinue_of_mem_suffix {key : ChildKey} {c : Char}
    (hc : c ∈ key.suffix.toList) : Unicode.isIdentifierContinue c = true := by
  have hwords : ∀ word ∈ ["Field", "Element"], word.toList.all Unicode.isIdentifierContinue = true := by
    decide
  dsimp only [ChildKey.suffix] at hc
  -- What camel case leaves nothing of is replaced by a word, for a field with its number.
  split at hc
  · cases key with
    | field v position =>
      rw [ChildKey.fallback, String.toList_append] at hc
      rcases List.mem_append.mp hc with hc | hc
      · exact List.all_eq_true.mp (hwords _ List.mem_cons_self) c hc
      · exact isIdentifierContinue_of_mem_toString hc
    | element item =>
      exact List.all_eq_true.mp (hwords _ (List.mem_cons_of_mem _ List.mem_cons_self)) c hc
  · rw [upperCamel, String.toList_ofList] at hc
    exact isIdentifierContinue_of_mem_camel hc

/-- A part of something that an identifier names is named by one. -/
theorem isIdentifier_childName {parent : String} (h : isIdentifier parent = true) (key : ChildKey) :
    isIdentifier (childName parent key) = true := by
  refine (extends_childName parent key).isIdentifier h ?_
  rw [childName, continues_append (ne_empty_of_isIdentifier h)]
  exact ⟨(isIdentifier_iff.mp h).2.1, fun _ => isIdentifierContinue_of_mem_suffix⟩

end Naming

open Naming

/-- Below an identifier the check of names never fails, whatever constructors there are. -/
theorem Builder.child_eq_node {b : Builder} {parent : String} (h : isIdentifier parent = true)
    (key : ChildKey) (v : Value) : b.child parent key v = b.node (childName parent key) v := by
  rw [child]
  cases b.node (childName parent key) v with
  | error e => rfl
  | ok t =>
    rw [Except.bind, Inference.checkName_eq_ok_iff]
    exact ⟨rfl, fun _ => isIdentifier_childName h key⟩

theorem Inference.child_eq_node {run : Inference} {parent : String} (h : isIdentifier parent = true)
    (key : ChildKey) (v : Value) : run.child parent key v = run.node (childName parent key) v :=
  Builder.child_eq_node h key v

end TypeSketch
