import TypeSketch.Proofs.Names.Renaming

/-!
# Identifiers

What an identifier is made of: a first character that may be one, and others behind it that
may go on from there. A name that has grown from an identifier starts as that one does, and
it is no reserved word, because a suffix starts with no small letter. So it is enough to
know the characters of the suffix.

## Main definitions

* `Naming.Continues`: Names that go on as identifiers do.

## Theorems

* `Unicode.not_identifier_of_isBlank`: White space cannot stand in an identifier.
* `Naming.isIdentifier_iff`: What an identifier is made of.
* `Naming.Extends.isIdentifier`: Identifiers that have grown from others.
-/

namespace TypeSketch

namespace Unicode

theorem exists_range_of_inRanges {code : Nat} {ranges : List (Nat × Nat)}
    (h : inRanges code ranges = true) : ∃ r ∈ ranges, r.1 ≤ code ∧ code ≤ r.2 := by
  induction ranges with
  | nil => contradiction
  | cons r rest ih =>
    rw [inRanges] at h
    split at h
    · contradiction
    · next hfirst =>
      split at h
      · next hlast => exact ⟨r, List.mem_cons_self, Nat.le_of_not_lt hfirst, hlast⟩
      · rcases ih h with ⟨q, hq, hcode⟩
        exact ⟨q, List.mem_cons_of_mem r hq, hcode⟩

/-- White space cannot stand in an identifier. -/
theorem not_identifier_of_isBlank {c : Char} (h : isBlank c = true) :
    isIdentifierStart c = false ∧ isIdentifierContinue c = false := by
  have hall : blankRanges.all (fun r => (List.range (r.2 + 1 - r.1)).all fun i =>
      !inRanges (r.1 + i) identifierStartRanges &&
        !inRanges (r.1 + i) identifierContinueRanges) = true := by decide +kernel
  rcases exists_range_of_inRanges h with ⟨r, hr, hfirst, hlast⟩
  have hcode := List.all_eq_true.mp (List.all_eq_true.mp hall r hr) (c.toNat - r.1)
    (List.mem_range.mpr (by omega))
  rw [Nat.add_sub_cancel' hfirst, Bool.and_eq_true, Bool.not_eq_true', Bool.not_eq_true'] at hcode
  exact hcode

end Unicode

namespace Naming

/-- Behind its first character the name has none that cannot stand in an identifier. -/
def Continues (name : String) : Prop :=
  ∀ c ∈ name.toList.tail, Unicode.isIdentifierContinue c = true

/-- An identifier is a first character that may be one, others that go on so, and no
    reserved word. -/
theorem isIdentifier_iff {name : String} :
    isIdentifier name = true ↔
      (∃ c rest, name.toList = c :: rest ∧ (c = '_' ∨ Unicode.isIdentifierStart c = true)) ∧
        Continues name ∧ name ∉ keywords := by
  rw [isIdentifier, Continues, Bool.and_eq_true, Bool.not_eq_true', List.contains_eq_mem,
    decide_eq_false_iff_not, ← and_assoc]
  refine and_congr_left fun _ => ?_
  cases name.toList with
  | nil => simp [isWord]
  | cons c rest =>
    rw [isWord, Bool.and_eq_true, Bool.or_eq_true, decide_eq_true_eq, List.all_eq_true]
    simp

theorem continues_append {s t : String} (hs : s ≠ "") :
    Continues (s ++ t) ↔
      Continues s ∧ ∀ c ∈ t.toList, Unicode.isIdentifierContinue c = true := by
  have hne : s.toList ≠ [] := fun h => hs (String.toList_eq_nil_iff.mp h)
  rw [Continues, Continues, String.toList_append, List.tail_append_of_ne_nil hne]
  simp only [List.mem_append, or_imp, forall_and]

theorem isIdentifierContinue_of_mem_toString {n : Nat} {c : Char} (hc : c ∈ (toString n).toList) :
    Unicode.isIdentifierContinue c = true := by
  have hdigits : (List.range 10).all (fun i =>
      Unicode.isIdentifierContinue (Char.ofNat ('0'.toNat + i))) = true := by decide
  have hdigit := isDigit_of_mem_toString hc
  have hlast : '9'.toNat = '0'.toNat + 9 := rfl
  rw [Char.isDigit_iff_toNat, hlast] at hdigit
  have hcode := List.all_eq_true.mp hdigits (c.toNat - '0'.toNat) (List.mem_range.mpr (by omega))
  rw [Nat.add_sub_cancel' hdigit.1, Char.ofNat_toNat] at hcode
  exact hcode

theorem ne_empty_of_isIdentifier {name : String} (h : isIdentifier name = true) : name ≠ "" := by
  rintro rfl
  exact absurd h (by decide)

/-- What goes on from an identifier as identifiers do is one. -/
theorem Extends.isIdentifier {parent name : String} (h : Extends parent name)
    (hparent : isIdentifier parent = true) (hname : Continues name) : isIdentifier name = true := by
  refine isIdentifier_iff.mpr ⟨?_, hname, h.not_mem (ne_empty_of_isIdentifier hparent) (by decide)⟩
  rcases (isIdentifier_iff.mp hparent).1 with ⟨c, rest, hchars, hc⟩
  rcases h with ⟨suffix, _, rfl⟩
  exact ⟨c, rest ++ suffix.toList, by rw [String.toList_append, hchars]; rfl, hc⟩

end Naming

end TypeSketch
